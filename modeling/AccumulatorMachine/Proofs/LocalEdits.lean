import AccumulatorMachine.Proofs.LineEnds
import AccumulatorMachine.Proofs.LinePlaces
import AccumulatorMachine.Proofs.ReportByLines

/-!
# One mistake does not bring another

A statement of a source may be replaced by another one, right or wrong. As long as neither is a separator,
all other lines keep their diagnostics. For what a line tells those behind it is whether it is blank and
whether it is a separator, and what it tells those in front of it is whether it is blank. Its own
diagnostics depend on its text, on whether the source is in its data, and on whether the line resumes the
source behind its first blank lines.

The new line is put into the text and not into the list of its lines. So it may end in a carriage return,
which the line end behind it takes for its own.

## Main definitions

* `Source.IsOrdinary` — a line that is neither blank nor a separator.
* `Source.Alike` — lines that tell the same to the lines behind them.
* `Source.Report.onLine`, `Source.Report.offLine` — the diagnostics of one line, and all others.

## Main results

* `Source.reportOf_congr` — lines behind lines that are alike have the same diagnostics.
* `Source.onLine_fill`, `Source.offLine_fill` — the report on a text with an ordinary line at a place.
* `Source.edit_is_local` — another ordinary line at the place of one.
-/

set_option autoImplicit false

namespace AccumulatorMachine.Source

/-! ## Ordinary lines -/

/-- A line that is neither blank nor a separator. -/
def IsOrdinary (line : List Char) : Prop := ¬ Text.IsBlankLine line ∧ ¬ IsSeparatorWord line

/-- A line is looked at to tell whether it is ordinary. -/
instance (line : List Char) : Decidable (IsOrdinary line) :=
  inferInstanceAs (Decidable (¬ Text.IsBlankLine line ∧ ¬ IsSeparatorWord line))

section Return

variable {line shown : List Char}

/-- A carriage return at the end of a line is no reason for a mistake at its start. -/
lemma leadingMistakes_append_return (line : List Char) :
    leadingMistakes (line ++ ['\r']) = leadingMistakes line := by
  cases line with
  | nil => decide
  | cons c cs => rfl

/-- A carriage return at the end of a statement does not matter. -/
lemma statement_append_return (part : Part) (line : List Char) :
    statement part (line ++ ['\r']) = statement part line := by
  have hfields : Text.fields (line ++ ['\r']) = Text.fields line :=
    Text.fields_blanks_append Text.isBlankLine_nil (by decide) line
  simp only [statement, Text.trim_append_return, leadingMistakes_append_return, hfields]

/-- An ordinary line stays ordinary without a carriage return at its end. -/
lemma isOrdinary_of_readAs (h : Text.ReadAs '\r' line shown) (hline : IsOrdinary line) :
    IsOrdinary shown := by
  rcases h with rfl | rfl
  · exact hline
  · rwa [IsOrdinary, IsSeparatorWord, ← Text.trim_eq_nil_iff, Text.trim_append_return,
      Text.trim_eq_nil_iff] at hline

/-- It has the same mistakes with and without one, wherever it stands. -/
lemma lineMistakes_of_readAs (h : Text.ReadAs '\r' line shown) (separated resumes : Bool) :
    lineMistakes separated resumes shown = lineMistakes separated resumes line := by
  rcases h with rfl | rfl
  · rfl
  · rw [lineMistakes, lineMistakes, statement_append_return]

end Return

/-! ## Lines that are alike -/

/-- Lines that tell the same to the lines behind them. -/
structure Alike (before before' : List (List Char)) : Prop where
  length_eq : before.length = before'.length
  solid_iff : (∀ line ∈ before, ¬ Text.IsBlankLine line) ↔ ∀ line ∈ before', ¬ Text.IsBlankLine line
  gap_iff : EndsInGap before ↔ EndsInGap before'
  separated_iff : IsSeparated before ↔ IsSeparated before'

variable {before before' behind behind' : List (List Char)}

/-- They still do with one more line behind them. -/
lemma Alike.concat (h : Alike before before') (line : List Char) :
    Alike (before ++ [line]) (before' ++ [line]) where
  length_eq := by rw [List.length_append, List.length_append, h.length_eq]
  solid_iff := by rw [forall_solid_concat, forall_solid_concat, h.solid_iff]
  gap_iff := by rw [endsInGap_concat, endsInGap_concat, h.solid_iff, h.gap_iff]
  separated_iff := by rw [isSeparated_concat, isSeparated_concat, h.separated_iff, h.gap_iff]

/-- An ordinary line tells the lines behind it what any other one does. -/
lemma alike_concat_ordinary (front : List (List Char)) {line line' : List Char}
    (hline : IsOrdinary line) (hline' : IsOrdinary line') :
    Alike (front ++ [line]) (front ++ [line']) where
  length_eq := by rw [List.length_append, List.length_append, List.length_singleton,
    List.length_singleton]
  solid_iff := by
    rw [forall_solid_concat, forall_solid_concat, and_iff_left hline.1, and_iff_left hline'.1]
  gap_iff := by
    rw [endsInGap_concat, endsInGap_concat]
    exact iff_of_false (fun h => hline.1 h.1) (fun h => hline'.1 h.1)
  separated_iff := by
    rw [isSeparated_concat, isSeparated_concat, or_iff_left fun h => hline.2 h.1,
      or_iff_left fun h => hline'.2 h.1]

/-- The mistakes of a line depend on little of the lines around it. -/
lemma ownMistakes_congr (h : Alike before before')
    (hbehind : (∃ line ∈ behind, ¬ Text.IsBlankLine line) ↔
      ∃ line ∈ behind', ¬ Text.IsBlankLine line) (line : List Char) :
    ownMistakes before line behind = ownMistakes before' line behind' := by
  simp only [ownMistakes, h.solid_iff, h.gap_iff, h.separated_iff, hbehind]

/-- So do the diagnostics of lines. -/
lemma reportOf_congr (h : Alike before before')
    (hbehind : (∃ line ∈ behind, ¬ Text.IsBlankLine line) ↔
      ∃ line ∈ behind', ¬ Text.IsBlankLine line) (lines : List (List Char)) :
    reportOf before lines behind = reportOf before' lines behind' := by
  induction lines generalizing before before' with
  | nil => rfl
  | cons line lines ih =>
    have hrest : (∃ other ∈ lines ++ behind, ¬ Text.IsBlankLine other) ↔
        ∃ other ∈ lines ++ behind', ¬ Text.IsBlankLine other := by
      simp only [List.mem_append, or_and_right, exists_or, hbehind]
    rw [reportOf, reportOf, h.length_eq, ownMistakes_congr h hrest, ih (h.concat line)]

/-! ## One line and all others -/

/-- The diagnostics at the number of a line. -/
def Report.onLine (r : Report) (number : Nat) : List Diagnostic :=
  r.diagnostics.filter fun d => d.line = number

/-- The diagnostics at all other numbers. -/
def Report.offLine (r : Report) (number : Nat) : List Diagnostic :=
  r.diagnostics.filter fun d => d.line ≠ number

/-- All other diagnostics are those of the lines in front of a line and of the lines behind it. -/
lemma filter_ne_reportOf (front : List (List Char)) (line : List Char) (later : List (List Char)) :
    (reportOf [] (front ++ line :: later) []).filter (fun d => d.line ≠ front.length + 1) =
      reportOf [] front (line :: later) ++ reportOf (front ++ [line]) later [] := by
  have hfront : ∀ d ∈ reportOf [] front (line :: later), d.line ≠ front.length + 1 := by
    intro d hd
    have := line_of_mem_reportOf hd
    rw [List.length_nil] at this
    omega
  have hline : ∀ d ∈ (ownMistakes front line later).map (Diagnostic.mk (front.length + 1)),
      ¬ d.line ≠ front.length + 1 := by
    intro d hd
    obtain ⟨mistake, -, rfl⟩ := List.mem_map.1 hd
    exact not_not.2 rfl
  have hlater : ∀ d ∈ reportOf (front ++ [line]) later [], d.line ≠ front.length + 1 := by
    intro d hd
    have := line_of_mem_reportOf hd
    rw [List.length_append, List.length_singleton] at this
    omega
  rw [reportOf_split, List.filter_append, List.filter_append,
    List.filter_eq_self.2 fun d hd => decide_eq_true (hfront d hd),
    List.filter_eq_nil_iff.2 fun d hd => by simpa using hline d hd,
    List.filter_eq_self.2 fun d hd => decide_eq_true (hlater d hd), List.nil_append]

section Place

variable (p : Text.Place '\n' '\r') {line line' : List Char}

/-- The lines of a text with an ordinary line at a place. -/
lemma exists_lines_fill (hline : IsOrdinary line) (hfeed : '\n' ∉ line) :
    ∃ shown, Text.ReadAs '\r' line shown ∧ IsOrdinary shown ∧
      Text.lines (p.fill line) = p.before ++ shown :: p.later := by
  have hne : line ≠ [] := by
    rintro rfl
    exact hline.1 Text.isBlankLine_nil
  obtain ⟨shown, hshown, hlines⟩ := p.cutLines_fill (by decide) hne hfeed
  exact ⟨shown, hshown, isOrdinary_of_readAs hshown hline, hlines⟩

/-- The diagnostics of the line itself are its mistakes. -/
lemma onLine_fill (hline : IsOrdinary line) (hfeed : '\n' ∉ line) :
    (check (p.fill line)).onLine p.number =
      (lineMistakes (IsSeparated p.before) (EndsInGap p.before) line).map (Diagnostic.mk p.number) := by
  obtain ⟨shown, hshown, hordinary, hlines⟩ := exists_lines_fill p hline hfeed
  have hown : ownMistakes p.before shown p.later =
      lineMistakes (IsSeparated p.before) (EndsInGap p.before) line := by
    rw [ownMistakes, if_neg hordinary.1, lineMistakes_of_readAs hshown]
  rw [Report.onLine, check_diagnostics, hlines, Text.Place.number, filter_reportOf, hown]

/-- All other diagnostics are the same for any two lines. -/
lemma offLine_fill (hline : IsOrdinary line) (hfeed : '\n' ∉ line) (hline' : IsOrdinary line')
    (hfeed' : '\n' ∉ line') :
    (check (p.fill line)).offLine p.number = (check (p.fill line')).offLine p.number := by
  obtain ⟨shown, -, hordinary, hlines⟩ := exists_lines_fill p hline hfeed
  obtain ⟨shown', -, hordinary', hlines'⟩ := exists_lines_fill p hline' hfeed'
  have hfront : reportOf [] p.before (shown :: p.later) = reportOf [] p.before (shown' :: p.later) :=
    reportOf_congr ⟨rfl, .rfl, .rfl, .rfl⟩
      (iff_of_true ⟨shown, List.mem_cons_self, hordinary.1⟩
        ⟨shown', List.mem_cons_self, hordinary'.1⟩) _
  have hlater : reportOf (p.before ++ [shown]) p.later [] =
      reportOf (p.before ++ [shown']) p.later [] :=
    reportOf_congr (alike_concat_ordinary _ hordinary hordinary') .rfl _
  rw [Report.offLine, Report.offLine, check_diagnostics, check_diagnostics, hlines, hlines',
    Text.Place.number, filter_ne_reportOf, filter_ne_reportOf, hfront, hlater]

end Place

/-- **One mistake does not bring another.** Let a line of a source be neither blank nor a separator. It
stands at a place, and any text without a line feed that is neither may be put there instead. No other
line gains or loses a diagnostic. The diagnostics of the new line depend on its text, on whether a separator
has been passed in front of it, and on whether it is the first statement behind the first blank lines. -/
theorem edit_is_local {source line : List Char} {before later : List (List Char)}
    (h : Text.lines source = before ++ line :: later) (hline : IsOrdinary line) :
    (∃ p : Text.Place '\n' '\r', Text.StandsAt p source before line later) ∧
      ∀ p : Text.Place '\n' '\r', Text.StandsAt p source before line later →
        ∀ new, '\n' ∉ new → IsOrdinary new →
          (check (p.fill new)).offLine (before.length + 1) =
            (check source).offLine (before.length + 1) ∧
          (check (p.fill new)).onLine (before.length + 1) =
            (lineMistakes (IsSeparated before) (EndsInGap before) new).map
              (Diagnostic.mk (before.length + 1)) := by
  refine ⟨Text.exists_standsAt (by decide) h, ?_⟩
  rintro p ⟨rfl, rfl, rfl, hfeed⟩ new hnew hordinary
  exact ⟨offLine_fill p hordinary hnew hline hfeed, onLine_fill p hordinary hnew⟩

/-- A code line that is replaced by one with three mistakes, and a carriage return at its end. -/
theorem edit_is_local_three_mistakes :
    Text.lines "NOP\nHALT\nDATA\n5 0".toList =
        ["NOP".toList] ++ "HALT".toList :: ["DATA".toList, "5 0".toList] ∧
      ∃ p : Text.Place '\n' '\r', p.fill " halt 1\r".toList = "NOP\n halt 1\r\nDATA\n5 0".toList ∧
        (check (p.fill " halt 1\r".toList)).onLine 2 =
          [⟨2, .leadingSpace⟩, ⟨2, .mnemonicCase⟩, ⟨2, .unexpectedArgument⟩] := by
  have hlines : Text.lines "NOP\nHALT\nDATA\n5 0".toList =
      ["NOP".toList] ++ "HALT".toList :: ["DATA".toList, "5 0".toList] := by
    decide
  let p : Text.Place '\n' '\r' :=
    ⟨"NOP\n".toList, "\n".toList, "DATA\n5 0".toList, .inr rfl, .inr (.inl rfl)⟩
  have hp : Text.StandsAt p "NOP\nHALT\nDATA\n5 0".toList ["NOP".toList] "HALT".toList
      ["DATA".toList, "5 0".toList] :=
    ⟨by decide, by decide, by decide, by decide⟩
  have hedit := (edit_is_local hlines (by decide)).2 p hp " halt 1\r".toList (by decide) (by decide)
  refine ⟨hlines, p, by decide, hedit.2.trans ?_⟩
  decide +kernel

end AccumulatorMachine.Source

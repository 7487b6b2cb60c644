import AccumulatorMachine.Proofs.LineEnds
import AccumulatorMachine.Proofs.SourceGrammar
import AccumulatorMachine.Proofs.WrittenNumbers

/-!
# Blank lines inside a source

Blank lines may stand at the end of a source only. Where a statement follows a blank line, the checker
reports the blank line once and passes over that statement unread. If all statements are in order, this
is the only report, with one exception. The statement that is passed over may be the separator. Then
the data lines behind it are read as code lines, and a data line is a code line only if its address is
spelled `ADD`, which is a number and a mnemonic.

## Main definitions

* `Source.Leads` — statements that lead from one part of a source to another.
* `Source.Break` — the first blank line with a statement behind it, and how the source goes on.
* `Source.misreading` — the mistakes of a data line that is read as a code line.

## Main results

* `Source.Scan.foldl_leads`, `foldl_later`, `foldl_misread` — how the scan goes over statements.
* `Source.statement_code_of_isDataLine` — what is found in a data line that is read as a code line.
* `Source.blank_line_report` — the report on a source whose statements are in order.
-/

set_option autoImplicit false

namespace AccumulatorMachine.Source

/-! ## Statements from one part to another -/

/-- Statements that lead from one part of a source to another. -/
inductive Leads : Part → List (List Char) → Part → Prop where
  | nil (part : Part) : Leads part [] part
  | cons {part next last : Part} {line : List Char} {rest : List (List Char)} (hflush : IsFlush line)
    (hstatement : IsStatement part line next) (hrest : Leads next rest last) :
    Leads part (line :: rest) last

/-- The lines of a source without blank lines are statements. -/
lemma exists_leads {part : Part} {lines : List (List Char)}
    (hsolid : ∀ line ∈ lines, ¬ Text.IsBlankLine line) (h : IsSource part lines) :
    ∃ last, Leads part lines last := by
  induction lines generalizing part with
  | nil => exact ⟨part, .nil part⟩
  | cons line rest ih =>
    rw [List.forall_mem_cons] at hsolid
    obtain ⟨hflush, next, hstatement, hrest⟩ := (isSource_cons_of_not_blank hsolid.1).1 h
    obtain ⟨last, hlast⟩ := ih hsolid.2 hrest
    exact ⟨last, .cons hflush hstatement hlast⟩

/-- What leads through some lines and others behind them leads through the former to where the latter
begin. -/
lemma leads_append {part last : Part} {front later : List (List Char)}
    (h : Leads part (front ++ later) last) : ∃ next, Leads part front next ∧ Leads next later last := by
  induction front generalizing part with
  | nil => exact ⟨part, .nil part, h⟩
  | cons line front ih =>
    cases h with
    | cons hflush hstatement hrest =>
      obtain ⟨next, hfront, hlater⟩ := ih hrest
      exact ⟨next, .cons hflush hstatement hfront, hlater⟩

/-- Behind the separator there are data lines. -/
lemma Leads.isDataLine {last : Part} {lines : List (List Char)} (h : Leads .data lines last) :
    ∀ line ∈ lines, IsFlush line ∧ IsDataLine line := by
  generalize hpart : Part.data = part at h
  induction h with
  | nil => nofun
  | @cons part next last line rest hflush hstatement _ ih =>
    subst hpart
    cases next with
    | code => exact hstatement.elim
    | data => exact List.forall_mem_cons.2 ⟨⟨hflush, hstatement⟩, ih rfl⟩

/-- Only the separator leads from one part to another. -/
lemma IsStatement.cases {part next : Part} {line : List Char} (h : IsStatement part line next) :
    IsSeparatorLine line ∧ part = .code ∧ next = .data ∨ ¬ IsSeparatorLine line ∧ next = part := by
  have hupper : IsSeparatorLine line → Text.capitals (Text.trim line) = separator := by
    intro hseparator
    rw [hseparator]
    decide
  cases part with
  | code =>
    cases next with
    | code => exact .inr ⟨fun hs => IsCodeLine.ne_separator h (hupper hs), rfl⟩
    | data => exact .inl ⟨h, rfl, rfl⟩
  | data =>
    cases next with
    | code => exact h.elim
    | data => exact .inr ⟨fun hs => IsDataLine.ne_separator h (hupper hs), rfl⟩

/-! ## Data lines that are read as code lines -/

/-- The mistakes of a data line that is read as a code line. -/
def misreading (line : List Char) : List Mistake :=
  match Text.fields line with
  | [] => []
  | address :: _ =>
    if address = "ADD".toList then []
    else if Text.capitals address = "ADD".toList then [.mnemonicCase] else [.unknownMnemonic]

/-- The upper case of a digit or a sign is one as well. -/
lemma all_capital {c : Char} (h : c = '+' ∨ c = '-' ∨ Numeral.isDigit c = true) :
    (Text.capital c).all ("+-0123456789ABCDEF".toList.contains ·) = true := by
  rcases h with rfl | rfl | h
  · decide
  · decide
  · obtain ⟨d, hd⟩ := Option.isSome_iff_exists.1 h
    have hstands := Numeral.digit?_eq_some_iff.1 hd
    have hlt := hstands.lt
    rcases hstands with hstands | hstands
    · interval_cases d <;> cases hstands <;> decide
    · interval_cases d <;> cases hstands <;> decide

/-- A number is spelled in digits and signs. -/
lemma mem_of_isSpelledBy {token : List Char} (h : Word.IsSpelledBy token) :
    ∀ c ∈ token, c = '+' ∨ c = '-' ∨ Numeral.isDigit c = true := by
  obtain ⟨n, ⟨sign, digits, value, rfl, hdigits, hsign⟩, -⟩ := h
  intro c hc
  rcases List.mem_append.1 hc with hc | hc
  · rcases hsign with ⟨rfl | rfl, -⟩ | ⟨rfl, -⟩
    · cases hc
    · exact .inl (List.mem_singleton.1 hc)
    · exact .inr (.inl (List.mem_singleton.1 hc))
  · exact .inr (.inr (hdigits.isDigit c hc))

/-- The only mnemonic that is a number, in any letter case, is `ADD`. -/
lemma ofMnemonic?_of_isSpelledBy {token : List Char} (h : Word.IsSpelledBy token) :
    Operation.ofMnemonic? (Text.capitals token) =
      if Text.capitals token = "ADD".toList then some .add else none := by
  have hall : (Text.capitals token).all ("+-0123456789ABCDEF".toList.contains ·) = true := by
    rw [List.all_eq_true]
    intro x hx
    obtain ⟨c, hc, hx⟩ := List.mem_flatMap.1 hx
    exact List.all_eq_true.1 (all_capital (mem_of_isSpelledBy h c hc)) x hx
  split
  · rename_i hadd
    exact Operation.ofMnemonic?_eq_some_iff.2 hadd.symm
  · rename_i hadd
    cases hop : Operation.ofMnemonic? (Text.capitals token) with
    | none => rfl
    | some op =>
      rw [← Operation.ofMnemonic?_eq_some_iff.1 hop] at hall hadd
      -- Every other mnemonic has a letter behind `F`.
      cases op with
      | add => exact absurd rfl hadd
      | _ => exact absurd hall (by decide)

/-- What is found in a data line that is read as a code line. -/
lemma statement_code_of_isDataLine {line : List Char} (hflush : IsFlush line) (h : IsDataLine line) :
    statement .code line = (misreading line, .code) := by
  have hseparator := h.ne_separator
  obtain ⟨address, value, hfields, haddress, hvalue⟩ := h
  have hargument : argumentMistakes .add [value] = [] :=
    (argumentMistakes_eq_nil_iff .add [value]).2
      (.inr ⟨rfl, value, rfl, [], value, List.mem_cons_self, rfl, hvalue⟩)
  rw [statement, if_neg hseparator, (leadingMistakes_eq_nil_iff line).2 hflush, misreading, hfields]
  simp only [codeMistakes, ofMnemonic?_of_isSpelledBy haddress, List.nil_append]
  by_cases hadd : Text.capitals address = "ADD".toList
  · simp only [hadd, if_true, hargument, List.append_nil]
  · have hne : address ≠ "ADD".toList := by
      rintro rfl
      exact hadd rfl
    simp only [hadd, hne, if_false]

/-- A data line has no mistake as a code line exactly if its address is spelled as the mnemonic. -/
lemma misreading_eq_nil_iff {line : List Char} (hline : ¬ Text.IsBlankLine line) :
    misreading line = [] ↔ (Text.fields line).head? = some "ADD".toList := by
  have hne : Text.fields line ≠ [] := fun h => hline ((Text.fields_eq_nil_iff line).1 h)
  obtain ⟨address, more, hfields⟩ := List.exists_cons_of_ne_nil hne
  rw [misreading, hfields, List.head?_cons, Option.some_inj]
  simp only
  by_cases h : address = "ADD".toList
  · rw [if_pos h]
    exact iff_of_true rfl h
  · rw [if_neg h]
    refine iff_of_false ?_ h
    split <;> exact List.cons_ne_nil _ _

/-! ## The scan -/

namespace Scan

variable {s : Scan} {lines : List (List Char)}

/-- Statements are gone over without a diagnostic. -/
lemma foldl_leads {last : Part} (h : Leads s.part lines last) (hgap : ∀ first, s.gap ≠ .pending first) :
    lines.foldl line s = { s with part := last, count := s.count + lines.length } := by
  generalize hpart : s.part = part at h
  induction h generalizing s with
  | nil =>
    subst hpart
    rfl
  | @cons part next last text rest hflush hstatement _ ih =>
    subst hpart
    have hsolid := hstatement.not_blank
    have hstep := line_of_not_blank hsolid hgap
    rw [(statement_eq_iff hsolid).2 ⟨hflush, hstatement⟩] at hstep
    rw [List.foldl_cons, ih (by rw [hstep]; exact hgap) (by rw [hstep]), hstep]
    simp only [List.map_nil, Array.appendList_nil, List.length_cons, Nat.add_assoc, Nat.add_comm 1]

/-- Blank lines behind a blank line are only counted. -/
lemma foldl_blanks_of_seen (hblank : ∀ line ∈ lines, Text.IsBlankLine line) (hgap : s.gap ≠ .unseen) :
    lines.foldl line s = { s with count := s.count + lines.length } := by
  induction lines generalizing s with
  | nil => rfl
  | cons text rest ih =>
    rw [List.forall_mem_cons] at hblank
    have hstep := line_of_blank (s := s) hblank.1
    rw [if_neg hgap] at hstep
    rw [List.foldl_cons, ih hblank.2 (by rw [hstep]; exact hgap), hstep]
    simp only [List.length_cons, Nat.add_assoc, Nat.add_comm 1]

/-- Of the first blank lines, the number of the first one is remembered. -/
lemma foldl_blanks (hblank : ∀ line ∈ lines, Text.IsBlankLine line) (hne : lines ≠ [])
    (hgap : s.gap = .unseen) :
    lines.foldl line s =
      { s with count := s.count + lines.length, gap := .pending (s.count + 1) } := by
  obtain ⟨text, rest, rfl⟩ := List.exists_cons_of_ne_nil hne
  rw [List.forall_mem_cons] at hblank
  have hstep := line_of_blank (s := s) hblank.1
  rw [if_pos hgap] at hstep
  rw [List.foldl_cons, foldl_blanks_of_seen hblank.2 (by rw [hstep]; nofun), hstep]
  simp only [List.length_cons, Nat.add_assoc, Nat.add_comm 1]

/-- Once a blank line has been reported, other ones do not matter, and statements are gone over. -/
lemma foldl_later {last : Part} (hgap : s.gap = .reported)
    (h : Leads s.part (lines.filter fun line => ¬ Text.IsBlankLine line) last) :
    (lines.foldl line s).found = s.found := by
  induction lines generalizing s with
  | nil => rfl
  | cons text rest ih =>
    rw [List.foldl_cons]
    by_cases hblank : Text.IsBlankLine text
    · have hstep := line_of_blank (s := s) hblank
      rw [if_neg (by rw [hgap]; nofun)] at hstep
      rw [List.filter_cons_of_neg (by simpa using hblank)] at h
      rw [ih (by rw [hstep]; exact hgap) (by rw [hstep]; exact h), hstep]
    · rw [List.filter_cons_of_pos (by simpa using hblank)] at h
      cases h with
      | cons hflush hstatement hrest =>
        have hstep := line_of_not_blank hblank (s := s) (by rw [hgap]; nofun)
        rw [(statement_eq_iff hblank).2 ⟨hflush, hstatement⟩] at hstep
        rw [ih (by rw [hstep]; exact hgap) (by rw [hstep]; exact hrest), hstep, List.map_nil,
          Array.appendList_nil]

end Scan

/-- The diagnostics of data lines that are read as code lines, from some line on. -/
def misreadings (number : Nat) (lines : List (List Char)) : List Diagnostic :=
  (lines.zipIdx number).flatMap fun (line, n) => (misreading line).map (Diagnostic.mk n)

/-- A first line is misread on its own, and the others with the numbers behind it. -/
lemma misreadings_cons (number : Nat) (line : List Char) (rest : List (List Char)) :
    misreadings number (line :: rest) =
      (misreading line).map (Diagnostic.mk number) ++ misreadings (number + 1) rest := rfl

/-- Nothing is found in data lines whose addresses are spelled as the mnemonic, and only in those. -/
lemma misreadings_eq_nil_iff (number : Nat) (lines : List (List Char)) :
    misreadings number lines = [] ↔ ∀ line ∈ lines, ¬ Text.IsBlankLine line →
      (Text.fields line).head? = some "ADD".toList := by
  induction lines generalizing number with
  | nil => exact iff_of_true rfl nofun
  | cons line rest ih =>
    rw [misreadings_cons, List.append_eq_nil_iff, List.map_eq_nil_iff, ih, List.forall_mem_cons]
    refine and_congr_left fun _ => ?_
    by_cases hblank : Text.IsBlankLine line
    · rw [misreading, (Text.fields_eq_nil_iff line).2 hblank]
      exact iff_of_true rfl fun h => absurd hblank h
    · rw [misreading_eq_nil_iff hblank, forall_prop_of_true hblank]

/-- Once a blank line has been reported, data lines in the code are misread. -/
lemma Scan.foldl_misread {s : Scan} {lines : List (List Char)} (hgap : s.gap = .reported)
    (hpart : s.part = .code)
    (h : ∀ line ∈ lines, ¬ Text.IsBlankLine line → IsFlush line ∧ IsDataLine line) :
    (lines.foldl line s).found.toList = s.found.toList ++ misreadings (s.count + 1) lines := by
  induction lines generalizing s with
  | nil => exact (List.append_nil _).symm
  | cons text rest ih =>
    rw [List.forall_mem_cons] at h
    rw [List.foldl_cons, misreadings_cons]
    by_cases hblank : Text.IsBlankLine text
    · have hstep := line_of_blank (s := s) hblank
      rw [if_neg (by rw [hgap]; nofun)] at hstep
      have hnone : misreading text = [] := by
        rw [misreading, (Text.fields_eq_nil_iff text).2 hblank]
      rw [ih (by rw [hstep]; exact hgap) (by rw [hstep]; exact hpart) h.2, hstep, hnone]
      rfl
    · obtain ⟨hflush, hdata⟩ := h.1 hblank
      have hstep := line_of_not_blank hblank (s := s) (by rw [hgap]; nofun)
      rw [hpart, statement_code_of_isDataLine hflush hdata] at hstep
      rw [ih (by rw [hstep]; exact hgap) (by rw [hstep]) h.2, hstep, Array.toList_appendList,
        List.append_assoc]

/-! ## Blank lines with statements behind them -/

/-- The first blank line that has a statement behind it, and how the source goes on. -/
structure Break (lines : List (List Char)) where
  /-- The statements up to the first blank line. -/
  front : List (List Char)
  /-- The first blank line and those right behind it. -/
  blanks : List (List Char)
  /-- The statement behind them. -/
  resumed : List Char
  /-- What follows this statement. -/
  later : List (List Char)
  eq_append : lines = front ++ (blanks ++ resumed :: later)
  front_solid : ∀ line ∈ front, ¬ Text.IsBlankLine line
  blanks_ne_nil : blanks ≠ []
  blanks_blank : ∀ line ∈ blanks, Text.IsBlankLine line
  resumed_solid : ¬ Text.IsBlankLine resumed

namespace Break

variable {lines : List (List Char)} (b : Break lines)

/-- The number of the first blank line. -/
def number : Nat := b.front.length + 1

/-- The number of the line behind the statement that is passed over. -/
def next : Nat := b.front.length + b.blanks.length + 2

end Break

/-- A list with a member of some kind has a first one. -/
lemma exists_first {α : Type} {p : α → Prop} {l : List α} (h : ∃ x ∈ l, p x) :
    ∃ front x behind, l = front ++ x :: behind ∧ (∀ y ∈ front, ¬ p y) ∧ p x := by
  classical
  cases hfind : l.find? fun x => decide (p x) with
  | none =>
    obtain ⟨x, hx, hpx⟩ := h
    exact absurd (decide_eq_true hpx) (List.find?_eq_none.1 hfind x hx)
  | some x =>
    obtain ⟨hpx, front, behind, hl, hfront⟩ := List.find?_eq_some_iff_append.1 hfind
    exact ⟨front, x, behind, hl, fun y hy => by simpa using hfront y hy, of_decide_eq_true hpx⟩

/-- If a statement stands behind a blank line, there is a break. -/
lemma exists_break {lines : List (List Char)}
    (h : ¬ lines.Pairwise fun a b => Text.IsBlankLine a → Text.IsBlankLine b) :
    Nonempty (Break lines) := by
  induction lines with
  | nil => exact absurd .nil h
  | cons line rest ih =>
    rw [List.pairwise_cons, not_and_or] at h
    by_cases hline : Text.IsBlankLine line
    · have hsolid : ∃ other ∈ rest, ¬ Text.IsBlankLine other := by
        by_contra hall
        push Not at hall
        have hpairwise : rest.Pairwise fun a b => Text.IsBlankLine a → Text.IsBlankLine b :=
          List.pairwise_of_forall_mem_list fun _ _ b hb _ => hall b hb
        rcases h with h | h
        · exact h fun b hb _ => hall b hb
        · exact h hpairwise
      obtain ⟨blanks, resumed, later, rfl, hblanks, hresumed⟩ := exists_first hsolid
      exact ⟨[], line :: blanks, resumed, later, rfl, nofun, List.cons_ne_nil _ _,
        List.forall_mem_cons.2 ⟨hline, fun b hb => not_not.1 (hblanks b hb)⟩, hresumed⟩
    · have hrest := h.resolve_left fun hnot => hnot fun _ _ hblank => absurd hblank hline
      obtain ⟨b⟩ := ih hrest
      exact ⟨line :: b.front, b.blanks, b.resumed, b.later, congrArg (line :: ·) b.eq_append,
        List.forall_mem_cons.2 ⟨hline, b.front_solid⟩, b.blanks_ne_nil, b.blanks_blank,
        b.resumed_solid⟩

/-- Blank lines may be added at the end of a source. -/
lemma isSource_of_filter {part : Part} {lines : List (List Char)}
    (hpairwise : lines.Pairwise fun a b => Text.IsBlankLine a → Text.IsBlankLine b)
    (h : IsSource part (lines.filter fun line => ¬ Text.IsBlankLine line)) : IsSource part lines := by
  induction lines generalizing part with
  | nil => exact h
  | cons line rest ih =>
    rw [List.pairwise_cons] at hpairwise
    by_cases hline : Text.IsBlankLine line
    · exact (isSource_cons_of_blank hline).2 fun b hb => hpairwise.1 b hb hline
    · rw [List.filter_cons_of_pos (by simpa using hline)] at h
      obtain ⟨hflush, next, hstatement, hrest⟩ := (isSource_cons_of_not_blank hline).1 h
      exact (isSource_cons_of_not_blank hline).2
        ⟨hflush, next, hstatement, ih hpairwise.2 hrest⟩

/-- A line is compared with the separator once it is trimmed. -/
instance (line : List Char) : Decidable (IsSeparatorLine line) :=
  inferInstanceAs (Decidable (Text.trim line = "DATA".toList))

/-- What is found in a source with a break. -/
lemma Break.found {lines : List (List Char)} (b : Break lines) {last : Part}
    (h : Leads .code (lines.filter fun line => ¬ Text.IsBlankLine line) last) :
    (lines.foldl Scan.line {}).found.toList =
      ⟨b.number, .blankLine⟩ ::
        if IsSeparatorLine b.resumed then misreadings b.next b.later else [] := by
  have hfilter : (lines.filter fun line => ¬ Text.IsBlankLine line) =
      b.front ++ b.resumed :: b.later.filter fun line => ¬ Text.IsBlankLine line := by
    conv_lhs => rw [b.eq_append]
    rw [List.filter_append, List.filter_append, List.filter_eq_self.2 (by simpa using b.front_solid),
      List.filter_eq_nil_iff.2 (by simpa using b.blanks_blank), List.nil_append,
      List.filter_cons_of_pos (by simpa using b.resumed_solid)]
  rw [hfilter] at h
  obtain ⟨part, hfront, hrest⟩ := leads_append h
  have hstart : b.front.foldl Scan.line {} = { part := part, count := 0 + b.front.length } :=
    Scan.foldl_leads hfront nofun
  have hscan : lines.foldl Scan.line {} =
      b.later.foldl Scan.line
        { part := part, gap := .reported, count := b.front.length + b.blanks.length + 1,
          found := #[⟨b.number, .blankLine⟩] } := by
    conv_lhs => rw [b.eq_append]
    rw [List.foldl_append, hstart, List.foldl_append,
      Scan.foldl_blanks b.blanks_blank b.blanks_ne_nil rfl, List.foldl_cons,
      Scan.line_of_pending b.resumed_solid rfl]
    simp [number]
  rw [hscan]
  cases hrest with
  | cons hflush hstatement hlater =>
    rcases hstatement.cases with ⟨hseparator, rfl, rfl⟩ | ⟨hseparator, rfl⟩
    · -- The scan stays in the code, although data lines follow.
      have hdata : ∀ line ∈ b.later, ¬ Text.IsBlankLine line → IsFlush line ∧ IsDataLine line :=
        fun line hmem hline => hlater.isDataLine line (by simpa using ⟨hmem, hline⟩)
      rw [Scan.foldl_misread rfl rfl hdata, if_pos hseparator]
      rfl
    · rw [Scan.foldl_later rfl hlater, if_neg hseparator]

/-- **What a blank line costs.** Let the lines of a source that are not blank make a source without a
mistake. If no such line stands behind a blank one, nothing is reported. Otherwise the first blank line
is reported, and the next statement is passed over.

That is all, unless this statement is the separator and the checker misses the change to the data. Then
each data line behind it is misread as a code line, and has a mistake unless its address is spelled
`ADD`.

**Proof sketch.** The scan goes over the statements up to the first blank line, and over the blank lines.
The statement behind them leads from its part to the next one, which is another part for the separator
only. In any other case the scan is in the right part again. -/
theorem blank_line_report {source alone : List Char}
    (halone : Text.lines alone = (Text.lines source).filter fun line => ¬ Text.IsBlankLine line)
    (hclean : (check alone).diagnostics = []) :
    ((Text.lines source).Pairwise (fun a b => Text.IsBlankLine a → Text.IsBlankLine b) →
        (check source).diagnostics = []) ∧
      (¬ (Text.lines source).Pairwise (fun a b => Text.IsBlankLine a → Text.IsBlankLine b) →
        ∃ b : Break (Text.lines source),
          (check source).diagnostics = ⟨b.number, .blankLine⟩ ::
            (if IsSeparatorLine b.resumed then misreadings b.next b.later else []) ∧
          ((check source).diagnostics = [⟨b.number, .blankLine⟩] ↔
            (IsSeparatorLine b.resumed → ∀ line ∈ b.later, ¬ Text.IsBlankLine line →
              (Text.fields line).head? = some "ADD".toList))) := by
  have hsource : IsSource .code ((Text.lines source).filter fun line => ¬ Text.IsBlankLine line) := by
    rw [← halone, Text.lines_eq_splitLines]
    exact (check_clean_iff alone).1 hclean
  constructor
  · intro hpairwise
    rw [check_clean_iff, ← Text.lines_eq_splitLines]
    exact isSource_of_filter hpairwise hsource
  · intro hbehind
    obtain ⟨b⟩ := exists_break hbehind
    obtain ⟨last, hleads⟩ := exists_leads (by simp) hsource
    have hfound : (check source).diagnostics = _ := b.found hleads
    refine ⟨b, hfound, ?_⟩
    rw [hfound]
    by_cases hseparator : IsSeparatorLine b.resumed
    · rw [if_pos hseparator, forall_prop_of_true hseparator, ← misreadings_eq_nil_iff b.next,
        List.cons.injEq]
      exact and_iff_right rfl
    · rw [if_neg hseparator]
      exact iff_of_true rfl fun h => absurd h hseparator

/-- A separator behind a blank line, with data lines that look like code more or less. -/
theorem blank_line_report_data_lines :
    ∃ source alone : List Char, source = "HALT\n\nDATA\nADD 1\nAdd 2\n5 0".toList ∧
      Text.lines alone = ((Text.lines source).filter fun line => ¬ Text.IsBlankLine line) ∧
      (check alone).diagnostics = [] ∧
      ∃ b : Break (Text.lines source), (check source).diagnostics = ⟨b.number, .blankLine⟩ ::
        (if IsSeparatorLine b.resumed then misreadings b.next b.later else []) := by
  let source : List Char := "HALT\n\nDATA\nADD 1\nAdd 2\n5 0".toList
  let alone : List Char := "HALT\nDATA\nADD 1\nAdd 2\n5 0".toList
  have halone : Text.lines alone =
      (Text.lines source).filter fun line => ¬ Text.IsBlankLine line := by
    decide
  have hclean : (check alone).diagnostics = [] := by decide +kernel
  have hbehind : ¬ (Text.lines source).Pairwise
      fun a b => Text.IsBlankLine a → Text.IsBlankLine b := by
    decide
  obtain ⟨b, hb, -⟩ := (blank_line_report halone hclean).2 hbehind
  exact ⟨source, alone, rfl, halone, hclean, b, hb⟩

/-- A blank line before the separator brings a second mistake, in a data line that is in order. -/
theorem blank_line_report_lost_separator :
    Text.lines "HALT\nDATA\n5 0".toList =
        ((Text.lines "HALT\n\nDATA\n5 0".toList).filter fun line => ¬ Text.IsBlankLine line) ∧
      (check "HALT\nDATA\n5 0".toList).diagnostics = [] ∧
      (check "HALT\n\nDATA\n5 0".toList).diagnostics = [⟨2, .blankLine⟩, ⟨4, .unknownMnemonic⟩] :=
  ⟨by decide, by decide +kernel, by decide +kernel⟩

end AccumulatorMachine.Source

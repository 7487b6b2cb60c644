import AccumulatorMachine.Proofs.Spelling
import AccumulatorMachine.Proofs.TextLayout
import AccumulatorMachine.Source.Checker

/-!
# The grammar of a source

The source checker scans a source line by line and remembers the part that it is in and what has become
of blank lines. The grammar of a source knows no scan: a source is statements and then blank lines, and
its statements are code lines, perhaps a separator, and data lines. The checker finds no mistake exactly
in the sources of the grammar.

## Main definitions

* `Source.IsCodeLine`, `IsSeparatorLine`, `IsDataLine` — the three kinds of statement.
* `Source.IsBody` — the statements of a source, from one of its parts on.
* `Source.IsSource` — the lines of a source, from one of its parts on.
* `Source.IsStatement` — one statement, and the part of the source behind it.

## Main results

* `Source.statement_eq_iff` — one line of the scan.
* `Source.found_foldl_iff` — the scan of any number of lines.
* `Source.check_clean_iff` — the checker accepts exactly the grammar.
-/

set_option autoImplicit false

namespace AccumulatorMachine.Source

/-! ## The grammar -/

/-- The mnemonics that stand alone. -/
def plainNames : List String := ["NOP", "NOT", "HALT"]

/-- The mnemonics with an argument. -/
def argumentNames : List String :=
  ["LOD", "STO", "ADD", "SUB", "MUL", "DIV", "AND", "JUMP", "JMPZ", "CMPL", "CMPZ"]

/-- An argument is a signed number of 32 bits in base 16, behind at most one mark. -/
def IsArgument (token : List Char) : Prop :=
  ∃ mark number, mark ∈ [[], ['#'], ['@'], ['&']] ∧ token = mark ++ number ∧ Word.IsSpelledBy number

/-- A code line is a mnemonic in upper case, with or without an argument. -/
def IsCodeLine (line : List Char) : Prop :=
  (∃ name ∈ plainNames, Text.fields line = [name.toList]) ∨
    ∃ name ∈ argumentNames, ∃ token, Text.fields line = [name.toList, token] ∧ IsArgument token

/-- A separator line is the word `DATA`, perhaps among blanks. -/
def IsSeparatorLine (line : List Char) : Prop := Text.trim line = "DATA".toList

/-- A data line is two signed numbers of 32 bits in base 16. -/
def IsDataLine (line : List Char) : Prop :=
  ∃ address value, Text.fields line = [address, value] ∧ Word.IsSpelledBy address ∧
    Word.IsSpelledBy value

/-- The statements of a source from one of its parts on. -/
def IsBody : Part → List (List Char) → Prop
  | .code, statements =>
    (∀ line ∈ statements, IsCodeLine line) ∨
      ∃ code separator data, statements = code ++ separator :: data ∧
        (∀ line ∈ code, IsCodeLine line) ∧ IsSeparatorLine separator ∧ ∀ line ∈ data, IsDataLine line
  | .data, statements => ∀ line ∈ statements, IsDataLine line

/-- A line that starts with no space and no tab. -/
def IsFlush (line : List Char) : Prop := line.head? ≠ some ' ' ∧ line.head? ≠ some '\t'

/-- The lines of a source from one of its parts on: statements, and then blank lines only. -/
def IsSource (part : Part) (lines : List (List Char)) : Prop :=
  ∃ statements blanks, lines = statements ++ blanks ∧ (∀ line ∈ statements, IsFlush line) ∧
    IsBody part statements ∧ ∀ line ∈ blanks, Text.IsBlankLine line

/-- One statement, and the part of the source behind it. -/
def IsStatement : Part → List Char → Part → Prop
  | .code, line, .code => IsCodeLine line
  | .code, line, .data => IsSeparatorLine line
  | .data, line, .data => IsDataLine line
  | .data, _, .code => False

/-- No statement is a blank line. -/
lemma IsStatement.not_blank {part next : Part} {line : List Char} (h : IsStatement part line next) :
    ¬ Text.IsBlankLine line := by
  intro hblank
  have hfields := (Text.fields_eq_nil_iff line).2 hblank
  have htrim := (Text.trim_eq_nil_iff line).2 hblank
  cases part with
  | code =>
    cases next with
    | code =>
      rcases h with ⟨name, -, hname⟩ | ⟨name, -, token, hname, -⟩
      · simp [hfields] at hname
      · simp [hfields] at hname
    | data =>
      rw [IsStatement, IsSeparatorLine, htrim] at h
      simp at h
  | data =>
    cases next with
    | code => exact h
    | data =>
      obtain ⟨address, value, hline, -⟩ := h
      simp [hfields] at hline

/-- Statements are one statement and further ones from the part behind it on. -/
lemma isBody_cons_iff {part : Part} {line : List Char} {rest : List (List Char)} :
    IsBody part (line :: rest) ↔ ∃ next, IsStatement part line next ∧ IsBody next rest := by
  cases part with
  | code =>
    constructor
    · intro h
      rcases h with hall | ⟨code, separator, data, hsplit, hcode, hseparator, hdata⟩
      · rw [List.forall_mem_cons] at hall
        exact ⟨.code, hall.1, Or.inl hall.2⟩
      · cases code with
        | nil =>
          obtain ⟨rfl, rfl⟩ := List.cons.inj hsplit
          exact ⟨.data, hseparator, hdata⟩
        | cons first code =>
          obtain ⟨rfl, rfl⟩ := List.cons.inj hsplit
          rw [List.forall_mem_cons] at hcode
          exact ⟨.code, hcode.1, Or.inr ⟨code, separator, data, rfl, hcode.2, hseparator, hdata⟩⟩
    · intro h
      obtain ⟨next, hline, hrest⟩ := h
      cases next with
      | code =>
        rcases hrest with hall | ⟨code, separator, data, rfl, hcode, hseparator, hdata⟩
        · exact Or.inl (List.forall_mem_cons.2 ⟨hline, hall⟩)
        · refine Or.inr ⟨line :: code, separator, data, rfl, ?_, hseparator, hdata⟩
          exact List.forall_mem_cons.2 ⟨hline, hcode⟩
      | data => exact Or.inr ⟨[], line, rest, rfl, by simp, hline, hrest⟩
  | data =>
    constructor
    · intro hall
      obtain ⟨hline, hrest⟩ := List.forall_mem_cons.1 hall
      exact ⟨.data, hline, hrest⟩
    · intro h
      obtain ⟨next, hline, hrest⟩ := h
      cases next with
      | code => exact absurd hline id
      | data => exact List.forall_mem_cons.2 ⟨hline, hrest⟩

/-- There may be no lines left. -/
lemma isSource_nil (part : Part) : IsSource part [] := by
  refine ⟨[], [], rfl, by simp, ?_, by simp⟩
  cases part with
  | code => exact Or.inl (by simp)
  | data =>
    intro line hline
    cases hline

/-- Behind a blank line stand blank lines only. -/
lemma isSource_cons_of_blank {part : Part} {line : List Char} {rest : List (List Char)}
    (hline : Text.IsBlankLine line) :
    IsSource part (line :: rest) ↔ ∀ l ∈ rest, Text.IsBlankLine l := by
  constructor
  · intro h
    obtain ⟨statements, blanks, hsplit, -, hbody, hblanks⟩ := h
    cases statements with
    | nil =>
      rw [List.nil_append] at hsplit
      subst hsplit
      exact (List.forall_mem_cons.1 hblanks).2
    | cons first statements =>
      obtain ⟨rfl, -⟩ := List.cons.inj hsplit
      obtain ⟨next, hstatement, -⟩ := isBody_cons_iff.1 hbody
      exact absurd hline hstatement.not_blank
  · intro hrest
    obtain ⟨statements, blanks, hnil, hflush, hbody, -⟩ := isSource_nil part
    obtain ⟨rfl, rfl⟩ := List.append_eq_nil_iff.1 hnil.symm
    exact ⟨[], line :: rest, rfl, hflush, hbody, List.forall_mem_cons.2 ⟨hline, hrest⟩⟩

/-- A line that is not blank is a statement, and a source from its next part on follows. -/
lemma isSource_cons_of_not_blank {part : Part} {line : List Char} {rest : List (List Char)}
    (hline : ¬ Text.IsBlankLine line) :
    IsSource part (line :: rest) ↔
      IsFlush line ∧ ∃ next, IsStatement part line next ∧ IsSource next rest := by
  constructor
  · intro h
    obtain ⟨statements, blanks, hsplit, hflush, hbody, hblanks⟩ := h
    cases statements with
    | nil =>
      rw [List.nil_append] at hsplit
      subst hsplit
      exact absurd (List.forall_mem_cons.1 hblanks).1 hline
    | cons first statements =>
      obtain ⟨rfl, rfl⟩ := List.cons.inj hsplit
      obtain ⟨next, hstatement, hrest⟩ := isBody_cons_iff.1 hbody
      rw [List.forall_mem_cons] at hflush
      exact ⟨hflush.1, next, hstatement, statements, blanks, rfl, hflush.2, hrest, hblanks⟩
  · intro h
    obtain ⟨hfirst, next, hstatement, statements, blanks, rfl, hflush, hbody, hblanks⟩ := h
    refine ⟨line :: statements, blanks, rfl, ?_, ?_, hblanks⟩
    · exact List.forall_mem_cons.2 ⟨hfirst, hflush⟩
    · exact isBody_cons_iff.2 ⟨next, hstatement, hbody⟩

/-! ## Code lines -/

/-- The operations without an argument have the plain names. -/
lemma mem_plainNames_iff {name : String} :
    name ∈ plainNames ↔ ∃ op : Operation, op.takesArgument = false ∧ op.mnemonic = name := by
  constructor
  · intro h
    simp only [plainNames, List.mem_cons, List.not_mem_nil, or_false] at h
    rcases h with rfl | rfl | rfl
    · exact ⟨.nop, rfl, rfl⟩
    · exact ⟨.not, rfl, rfl⟩
    · exact ⟨.halt, rfl, rfl⟩
  · intro h
    obtain ⟨op, hop, rfl⟩ := h
    revert hop
    cases op <;> decide

/-- The operations with an argument have the other names. -/
lemma mem_argumentNames_iff {name : String} :
    name ∈ argumentNames ↔ ∃ op : Operation, op.takesArgument = true ∧ op.mnemonic = name := by
  constructor
  · intro h
    have hfound : (Operation.all.find? fun op => op.takesArgument && op.mnemonic == name).isSome := by
      revert h
      simp only [argumentNames, List.mem_cons, List.not_mem_nil, or_false]
      rintro (rfl | rfl | rfl | rfl | rfl | rfl | rfl | rfl | rfl | rfl | rfl) <;> rfl
    obtain ⟨op, hop⟩ := Option.isSome_iff_exists.1 hfound
    have hboth := List.find?_some hop
    simp only [Bool.and_eq_true, beq_iff_eq] at hboth
    exact ⟨op, hboth⟩
  · intro h
    obtain ⟨op, hop, rfl⟩ := h
    revert hop
    cases op <;> decide

/-- Mnemonics are in upper case. -/
lemma capitals_mnemonic (op : Operation) :
    Text.capitals op.mnemonic.toList = op.mnemonic.toList := by
  cases op <;> decide

/-- No number starts with a mark. -/
lemma splitMark_of_isSpelledBy {number : List Char} (h : Word.IsSpelledBy number) :
    Mode.splitMark number = (.direct, number) := by
  obtain ⟨n, ⟨sign, digits, value, rfl, hvalue, hsign⟩, -⟩ := h
  obtain ⟨c, cs, rfl⟩ := List.exists_cons_of_ne_nil hvalue.ne_nil
  have hdigit := hvalue.digit?_head
  rcases hsign with ⟨rfl | rfl, -⟩ | ⟨rfl, -⟩
  · -- Without a sign, the first character is a digit, and no mark is one.
    rw [List.nil_append]
    unfold Mode.splitMark
    split
    · rename_i heq
      cases heq
      exact absurd (by decide) hdigit
    · rename_i heq
      cases heq
      exact absurd (by decide) hdigit
    · rename_i heq
      cases heq
      exact absurd (by decide) hdigit
    · rfl
  · rfl
  · rfl

/-- A token is an argument exactly when a number is left after its mark is taken off. -/
lemma isArgument_iff {token : List Char} :
    IsArgument token ↔ Word.IsSpelledBy (Mode.splitMark token).2 := by
  constructor
  · intro h
    obtain ⟨mark, number, hmark, rfl, hnumber⟩ := h
    simp only [List.mem_cons, List.not_mem_nil, or_false] at hmark
    rcases hmark with rfl | rfl | rfl | rfl
    · rw [List.nil_append, splitMark_of_isSpelledBy hnumber]
      exact hnumber
    · exact hnumber
    · exact hnumber
    · exact hnumber
  · intro h
    unfold Mode.splitMark at h
    split at h
    · exact ⟨['#'], _, by simp, rfl, h⟩
    · exact ⟨['@'], _, by simp, rfl, h⟩
    · exact ⟨['&'], _, by simp, rfl, h⟩
    · exact ⟨[], _, by simp, rfl, h⟩

/-- A token is found to be a number exactly when it spells one. -/
lemma isWord_iff (token : List Char) : isWord token = true ↔ Word.IsSpelledBy token :=
  Word.isSome_read?_iff

/-- The arguments of an operation have no mistake if there are none, or one where one is wanted. -/
lemma argumentMistakes_eq_nil_iff (op : Operation) (arguments : List (List Char)) :
    argumentMistakes op arguments = [] ↔
      op.takesArgument = false ∧ arguments = [] ∨
        op.takesArgument = true ∧ ∃ token, arguments = [token] ∧ IsArgument token := by
  cases htakes : op.takesArgument with
  | false => simp [argumentMistakes, htakes]
  | true =>
    rcases arguments with _ | ⟨token, _ | ⟨another, more⟩⟩
    · simp [argumentMistakes, htakes]
    · simp [argumentMistakes, htakes, isWord_iff, isArgument_iff]
    · simp [argumentMistakes, htakes]

/-- A code line has no mistake exactly when its first token is a mnemonic in upper case and its other
tokens are what the operation takes. -/
lemma codeMistakes_cons_eq_nil_iff (name : List Char) (arguments : List (List Char)) :
    codeMistakes (name :: arguments) = [] ↔
      ∃ op : Operation, op.mnemonic.toList = name ∧ argumentMistakes op arguments = [] := by
  rw [codeMistakes]
  constructor
  · intro h
    cases hop : Operation.ofMnemonic? (Text.capitals name) with
    | none => simp [hop] at h
    | some op =>
      simp only [hop, List.append_eq_nil_iff, ite_eq_left_iff, reduceCtorEq, imp_false, not_not] at h
      refine ⟨op, ?_, h.2⟩
      rw [h.1]
      exact Operation.ofMnemonic?_eq_some_iff.1 hop
  · intro h
    obtain ⟨op, rfl, h⟩ := h
    rw [capitals_mnemonic, Operation.ofMnemonic?_eq_some_iff.2 rfl]
    simp [h]

/-- A line that is not blank has no mistake as a code line exactly when it is one. -/
lemma codeMistakes_fields_eq_nil_iff {line : List Char} (hline : ¬ Text.IsBlankLine line) :
    codeMistakes (Text.fields line) = [] ↔ IsCodeLine line := by
  have hne : Text.fields line ≠ [] := fun h => hline ((Text.fields_eq_nil_iff line).1 h)
  obtain ⟨name, arguments, hfields⟩ := List.exists_cons_of_ne_nil hne
  rw [IsCodeLine, hfields, codeMistakes_cons_eq_nil_iff]
  constructor
  · intro h
    obtain ⟨op, rfl, h⟩ := h
    rcases (argumentMistakes_eq_nil_iff op arguments).1 h with
      ⟨htakes, rfl⟩ | ⟨htakes, token, rfl, htoken⟩
    · exact Or.inl ⟨op.mnemonic, mem_plainNames_iff.2 ⟨op, htakes, rfl⟩, rfl⟩
    · exact Or.inr ⟨op.mnemonic, mem_argumentNames_iff.2 ⟨op, htakes, rfl⟩, token, rfl, htoken⟩
  · intro h
    rcases h with ⟨spelled, hspelled, h⟩ | ⟨spelled, hspelled, token, h, htoken⟩
    · obtain ⟨op, htakes, rfl⟩ := mem_plainNames_iff.1 hspelled
      obtain ⟨rfl, rfl⟩ := List.cons.inj h
      exact ⟨op, rfl, (argumentMistakes_eq_nil_iff op []).2 (Or.inl ⟨htakes, rfl⟩)⟩
    · obtain ⟨op, htakes, rfl⟩ := mem_argumentNames_iff.1 hspelled
      obtain ⟨rfl, rfl⟩ := List.cons.inj h
      exact ⟨op, rfl, (argumentMistakes_eq_nil_iff op [token]).2 (Or.inr ⟨htakes, token, rfl, htoken⟩)⟩

/-! ## Data lines -/

/-- A line has no mistake as a data line exactly when it is one. -/
lemma dataMistakes_fields_eq_nil_iff (line : List Char) :
    dataMistakes (Text.fields line) = [] ↔ IsDataLine line := by
  rw [IsDataLine]
  rcases Text.fields line with _ | ⟨address, _ | ⟨value, _ | ⟨third, more⟩⟩⟩
  · simp [dataMistakes]
  · simp [dataMistakes]
  · simp [dataMistakes, isWord_iff]
  · simp [dataMistakes]

/-! ## Statements -/

/-- A line with the separator in any letter case has one field. -/
lemma fields_of_separator {line : List Char} (h : Text.capitals (Text.trim line) = separator) :
    Text.fields line = [Text.trim line] := by
  have hletters : separator.all Char.isUpper = true := by decide
  exact Text.fields_of_capitals (List.cons_ne_nil _ _) (List.all_eq_true.1 hletters) h

/-- A code line has no separator, in any letter case. -/
lemma IsCodeLine.ne_separator {line : List Char} (h : IsCodeLine line) :
    Text.capitals (Text.trim line) ≠ separator := by
  intro hseparator
  have hfields := fields_of_separator hseparator
  rcases h with ⟨name, hname, hline⟩ | ⟨name, -, token, hline, -⟩
  · obtain ⟨op, -, rfl⟩ := mem_plainNames_iff.1 hname
    rw [hfields] at hline
    rw [(List.cons.inj hline).1, capitals_mnemonic] at hseparator
    revert hseparator
    cases op <;> decide
  · rw [hfields] at hline
    simp at hline

/-- Neither has a data line. -/
lemma IsDataLine.ne_separator {line : List Char} (h : IsDataLine line) :
    Text.capitals (Text.trim line) ≠ separator := by
  intro hseparator
  obtain ⟨address, value, hline, -⟩ := h
  rw [fields_of_separator hseparator] at hline
  simp at hline

/-- A line starts with no space and no tab exactly when no such mistake is found. -/
lemma leadingMistakes_eq_nil_iff (line : List Char) : leadingMistakes line = [] ↔ IsFlush line := by
  simp [leadingMistakes, IsFlush]

/-- A line of the code has no mistake exactly when it is a code line, or the separator in upper case.

**Proof sketch.** The lines with the separator in any letter case are a case of their own. They are no
code lines, and all other lines are no separators. -/
lemma statement_code_eq_iff {next : Part} {line : List Char} (hline : ¬ Text.IsBlankLine line) :
    statement .code line = ([], next) ↔
      leadingMistakes line = [] ∧ IsStatement .code line next := by
  by_cases hseparator : Text.capitals (Text.trim line) = separator
  · cases next with
    | code =>
      simp only [statement, hseparator, if_true, Prod.mk.injEq, reduceCtorEq, and_false, false_iff]
      intro h
      exact IsCodeLine.ne_separator h.2 hseparator
    | data =>
      simp only [statement, hseparator, if_true, Prod.mk.injEq, and_true, List.append_eq_nil_iff,
        ite_eq_left_iff, reduceCtorEq, imp_false, not_not]
      exact Iff.rfl
  · cases next with
    | code =>
      simp only [statement, hseparator, if_false, Prod.mk.injEq, and_true, List.append_eq_nil_iff,
        codeMistakes_fields_eq_nil_iff hline]
      exact Iff.rfl
    | data =>
      have hupper : Text.capitals separator = separator := by decide
      simp only [statement, hseparator, if_false, Prod.mk.injEq, reduceCtorEq, and_false, false_iff]
      intro h
      have htrim : Text.trim line = separator := h.2
      rw [htrim] at hseparator
      exact hseparator hupper

/-- A line of the data has no mistake exactly when it is a data line. A separator is none, and is
reported in any letter case. -/
lemma statement_data_eq_iff {next : Part} (line : List Char) :
    statement .data line = ([], next) ↔
      leadingMistakes line = [] ∧ IsStatement .data line next := by
  cases next with
  | code =>
    simp only [statement, Prod.mk.injEq, reduceCtorEq, and_false, false_iff]
    intro h
    exact h.2
  | data =>
    simp only [statement, Prod.mk.injEq, and_true, List.append_eq_nil_iff, ite_eq_right_iff,
      reduceCtorEq, imp_false, dataMistakes_fields_eq_nil_iff]
    constructor
    · intro h
      exact ⟨h.1.1, h.2⟩
    · intro h
      have hdata : IsDataLine line := h.2
      exact ⟨⟨h.1, hdata.ne_separator⟩, hdata⟩

/-- **One line of the scan.** A line that is not blank has no mistake exactly when it starts with no
space and no tab and is a statement of its part. -/
lemma statement_eq_iff {part next : Part} {line : List Char} (hline : ¬ Text.IsBlankLine line) :
    statement part line = ([], next) ↔ IsFlush line ∧ IsStatement part line next := by
  rw [← leadingMistakes_eq_nil_iff]
  cases part with
  | code => exact statement_code_eq_iff hline
  | data => exact statement_data_eq_iff line

/-! ## The scan -/

/-- A blank line adds no diagnostic. The first one is remembered. -/
lemma Scan.line_of_blank {s : Scan} {line : List Char} (hline : Text.IsBlankLine line) :
    s.line line =
      { s with count := s.count + 1
               gap := if s.gap = .unseen then .pending (s.count + 1) else s.gap } := by
  rw [Scan.line, if_pos ((Text.trim_eq_nil_iff line).2 hline)]

/-- A line that is not blank is checked as a statement, unless it is the first one behind a blank
line. -/
lemma Scan.line_of_not_blank {s : Scan} {line : List Char} (hline : ¬ Text.IsBlankLine line)
    (hgap : ∀ first, s.gap ≠ .pending first) :
    s.line line =
      { s with count := s.count + 1
               part := (statement s.part line).2
               found := s.found ++ (statement s.part line).1.map (Diagnostic.mk (s.count + 1)) } := by
  rw [Scan.line, if_neg (fun h => hline ((Text.trim_eq_nil_iff line).1 h))]
  cases h : s.gap with
  | pending first => exact absurd h (hgap first)
  | unseen | reported => rfl

/-- The first line that is not blank behind a blank one has the blank one reported, and is passed
over. -/
lemma Scan.line_of_pending {s : Scan} {line : List Char} (hline : ¬ Text.IsBlankLine line) {first : Nat}
    (hgap : s.gap = .pending first) :
    s.line line =
      { s with count := s.count + 1, gap := .reported, found := s.found.push ⟨first, .blankLine⟩ } := by
  rw [Scan.line, if_neg (fun h => hline ((Text.trim_eq_nil_iff line).1 h)), hgap]

/-- Diagnostics are only ever added. -/
lemma Scan.found_line (s : Scan) (line : List Char) :
    ∃ more, (s.line line).found.toList = s.found.toList ++ more := by
  rw [Scan.line]
  split
  · exact ⟨[], by simp⟩
  · split
    · rename_i first _
      exact ⟨[⟨first, .blankLine⟩], by simp⟩
    · exact ⟨(statement s.part line).1.map (Diagnostic.mk (s.count + 1)), by simp⟩

/-- Once there is a diagnostic, the scan stays with one. -/
lemma Scan.found_foldl_ne {s : Scan} (h : s.found.toList ≠ []) (lines : List (List Char)) :
    (lines.foldl Scan.line s).found.toList ≠ [] := by
  induction lines generalizing s with
  | nil => exact h
  | cons line rest ih =>
    apply ih
    obtain ⟨more, hmore⟩ := s.found_line line
    rw [hmore]
    intro hempty
    exact h (List.append_eq_nil_iff.1 hempty).1

/-- Behind a blank line the scan finds nothing exactly when only blank lines follow. -/
lemma Scan.found_foldl_iff_of_pending {s : Scan} {first : Nat} (hgap : s.gap = .pending first)
    (hfound : s.found.toList = []) (lines : List (List Char)) :
    (lines.foldl Scan.line s).found.toList = [] ↔ ∀ line ∈ lines, Text.IsBlankLine line := by
  induction lines generalizing s with
  | nil => simp [hfound]
  | cons line rest ih =>
    rw [List.foldl_cons, List.forall_mem_cons]
    by_cases hline : Text.IsBlankLine line
    · rw [Scan.line_of_blank hline]
      simp only [hline, true_and]
      apply ih
      · simp [hgap]
      · exact hfound
    · have hreport : (s.line line).found.toList ≠ [] := by
        rw [Scan.line_of_pending hline hgap]
        simp
      simp only [hline, false_and, iff_false]
      exact Scan.found_foldl_ne hreport rest

/-- **The scan of any number of lines.** As long as there was no blank line and no mistake, the scan
finds nothing in the lines that are left exactly when they are those of a source from its part on.

**Proof sketch.** Induction on the lines. At a blank line the scan goes over to looking for blank lines
only, and so does the grammar. Any other line must be a statement, or else its mistake stays. -/
theorem Scan.found_foldl_iff {s : Scan} (hgap : s.gap = .unseen) (hfound : s.found.toList = [])
    (lines : List (List Char)) :
    (lines.foldl Scan.line s).found.toList = [] ↔ IsSource s.part lines := by
  induction lines generalizing s with
  | nil => simp [hfound, isSource_nil]
  | cons line rest ih =>
    rw [List.foldl_cons]
    by_cases hline : Text.IsBlankLine line
    · have hpending : (s.line line).gap = .pending (s.count + 1) := by
        rw [Scan.line_of_blank hline]
        simp [hgap]
      have hkept : (s.line line).found.toList = [] := by
        rw [Scan.line_of_blank hline]
        exact hfound
      rw [isSource_cons_of_blank hline]
      exact Scan.found_foldl_iff_of_pending hpending hkept rest
    · rw [isSource_cons_of_not_blank hline]
      have hnot : ∀ first, s.gap ≠ .pending first := by simp [hgap]
      have hstep := Scan.line_of_not_blank hline hnot
      obtain ⟨mistakes, next, hstatement⟩ : ∃ mistakes next, statement s.part line = (mistakes, next) :=
        ⟨_, _, rfl⟩
      rw [hstatement] at hstep
      by_cases hclean : mistakes = []
      · -- The scan goes on in the part behind the statement, which is the only one it can have.
        subst hclean
        obtain ⟨hflush, hnext⟩ := (statement_eq_iff hline).1 hstatement
        have hunique : ∀ other, IsStatement s.part line other → other = next := by
          intro other hother
          have hsame := (statement_eq_iff hline).2 ⟨hflush, hother⟩
          rw [hstatement] at hsame
          exact (Prod.mk.inj hsame).2.symm
        have hrest : (rest.foldl Scan.line (s.line line)).found.toList = [] ↔ IsSource next rest := by
          rw [hstep]
          exact ih hgap (by simp [hfound])
        rw [hrest]
        constructor
        · intro h
          exact ⟨hflush, next, hnext, h⟩
        · intro h
          obtain ⟨-, other, hother, h⟩ := h
          obtain rfl := hunique other hother
          exact h
      · -- The mistake stays to the end, and no statement makes one.
        have hreport : (s.line line).found.toList ≠ [] := by
          rw [hstep]
          simp [hclean]
        constructor
        · intro h
          exact absurd h (Scan.found_foldl_ne hreport rest)
        · intro h
          obtain ⟨hflush, other, hother, -⟩ := h
          have hnone := (statement_eq_iff hline).2 ⟨hflush, hother⟩
          rw [hstatement] at hnone
          exact absurd (Prod.mk.inj hnone).1 hclean

/-- **The checker accepts exactly the grammar.** The report on a source has no diagnostic if and only if
the lines of the source are statements and then blank lines, no statement starts with a space or a tab,
and the statements are code lines, perhaps followed by a separator line and data lines. -/
theorem check_clean_iff (source : List Char) :
    (check source).diagnostics = [] ↔ IsSource .code (Text.splitLines source) := by
  rw [← Text.lines_eq_splitLines, check]
  exact Scan.found_foldl_iff rfl rfl (Text.lines source)

end AccumulatorMachine.Source

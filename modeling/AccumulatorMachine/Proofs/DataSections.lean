import AccumulatorMachine.Proofs.ImageFormat
import AccumulatorMachine.Proofs.ReportByLines

/-!
# Data sections

The data of a source and the data of an image look alike, but they are not read alike. The checker of
sources takes signed numbers of 32 bits only, the reader of images takes bit patterns as well, and it
tells numbers that are too wide from texts that are no numbers. Yet whatever data the checker lets pass is
data of an image, with the numbers that the checker finds: nothing but the line in front of it has to be
replaced.

## Main definitions

* `Source.SaysCell` — the cell that a line says, as the checker reads it.

## Main results

* `Text.hasLines_lines` — a text is made of its lines.
* `Source.IsSource.of_separator` — behind the separator stands the data of a source.
* `Image.IsRow.rowWrittenAs` — a line with two fields is written as one.
* `Source.image_of_data_section` — data without a mistake is data of an image.
-/

set_option autoImplicit false

namespace AccumulatorMachine

open Text

/-! ## Lines -/

/-- **A text is made of its lines.**

**Proof sketch.** Induction on the length of the text. Its first line stands at a place, with nothing in
front of it, and the other lines are those of the text behind its line end. -/
lemma Text.hasLines_lines (text : List Char) : HasLines text (lines text) := by
  cases hlines : lines text with
  | nil =>
    rw [(cutLines_eq_nil_iff text).1 hlines]
    exact .nil
  | cons line later =>
    have hcut : cutLines '\n' '\r' text = [] ++ line :: later := hlines
    obtain ⟨p, hfill, hbefore, rfl, hfeed⟩ := exists_standsAt (by decide) hcut
    have hfront : p.front = [] := (cutLines_eq_nil_iff p.front).1 hbefore
    rw [Place.fill, hfront, List.nil_append] at hfill
    rcases p.ending_or with ⟨hending, hbehind⟩ | hending
    · have hlater : p.later = [] := (cutLines_eq_nil_iff p.behind).2 hbehind
      have hne : line ≠ [] := by
        rintro rfl
        rw [← hfill, hending, hbehind] at hlines
        cases hlines
      rw [← hfill, hlater, hending, hbehind, List.append_nil, List.append_nil]
      exact .last hne hfeed
    · have hshorter : p.behind.length < text.length := by
        rw [← hfill, List.length_append, List.length_append]
        rcases hending with hending | hending <;> simp only [hending, List.length_cons] <;> omega
      rw [← hfill]
      exact .cons hfeed (by simpa using hending) (hasLines_lines p.behind)
termination_by text.length

/-- The text behind the line end of a line. -/
lemma Text.exists_lines_behind {text line : List Char} {before after : List (List Char)}
    (h : lines text = before ++ line :: after) :
    ∃ front behind, text = front ++ behind ∧ lines behind = after := by
  have hcut : cutLines '\n' '\r' text = before ++ line :: after := h
  obtain ⟨p, hfill, -, hlater, -⟩ := exists_standsAt (by decide) hcut
  refine ⟨p.front ++ (line ++ p.ending), p.behind, ?_, hlater⟩
  simpa [Place.fill] using hfill.symm

namespace Source

/-! ## Behind the separator -/

variable {line word : List Char} {before rest : List (List Char)}

/-- There is no separator in data, in any letter case. -/
lemma IsSource.word_notMem (h : IsSource .data rest) (hword : IsSeparatorWord word) :
    word ∉ rest := by
  obtain ⟨statements, blanks, rfl, -, hbody, hblanks⟩ := h
  rw [List.mem_append]
  rintro (hmem | hmem)
  · exact IsDataLine.ne_separator (hbody word hmem) hword
  · exact hword.not_blank (hblanks word hmem)

/-- **Behind the separator stands the data of a source.**

**Proof sketch.** Induction on the lines in front of the separator. They are neither blank nor separators
themselves, as no separator could follow them. -/
lemma IsSource.of_separator (hword : IsSeparatorWord word)
    (h : IsSource .code (before ++ word :: rest)) : IsSource .data rest := by
  induction before with
  | nil =>
    obtain ⟨-, next, hstatement, hnext⟩ := (isSource_cons_of_not_blank hword.not_blank).1 h
    cases next with
    | code => exact absurd hword (IsCodeLine.ne_separator hstatement)
    | data => exact hnext
  | cons line before ih =>
    have hmem : word ∈ before ++ word :: rest := by simp
    by_cases hline : Text.IsBlankLine line
    · exact absurd ((isSource_cons_of_blank hline).1 h word hmem) hword.not_blank
    · obtain ⟨-, next, -, hnext⟩ := (isSource_cons_of_not_blank hline).1 h
      cases next with
      | code => exact ih hnext
      | data => exact absurd hmem (hnext.word_notMem hword)

/-! ## Cells -/

/-- A line says a cell: it has two fields, and the checker reads them as the address and the word. -/
def SaysCell (cell : Int32 × Int32) (line : List Char) : Prop :=
  Image.IsRow (fun token => Word.read? token = some cell.1) (fun token => Word.read? token = some cell.2)
    line

/-- Every data line says a cell. -/
lemma IsDataLine.exists_saysCell (h : IsDataLine line) : ∃ cell, SaysCell cell line := by
  obtain ⟨a, b, hfields, ha, hb⟩ := h
  obtain ⟨address, haddress⟩ := Option.isSome_iff_exists.1 (Word.isSome_read?_iff.2 ha)
  obtain ⟨value, hvalue⟩ := Option.isSome_iff_exists.1 (Word.isSome_read?_iff.2 hb)
  exact ⟨(address, value), a, b, hfields, haddress, hvalue⟩

/-- The lines of data that are not blank say cells, one each. -/
lemma IsSource.exists_cells (h : IsSource .data rest) :
    ∃ data, List.Forall₂ SaysCell data (rest.filter fun line => ¬ Text.IsBlankLine line) := by
  have hdata : ∀ line ∈ rest.filter fun line => ¬ Text.IsBlankLine line, IsDataLine line := by
    obtain ⟨statements, blanks, rfl, -, hbody, hblanks⟩ := h
    intro line hline
    obtain ⟨hmem, hsolid⟩ := List.mem_filter.1 hline
    rcases List.mem_append.1 hmem with hmem | hmem
    · exact hbody line hmem
    · exact absurd (hblanks line hmem) (by simpa using hsolid)
  generalize rest.filter _ = statements at hdata
  induction statements with
  | nil => exact ⟨[], .nil⟩
  | cons line statements ih =>
    obtain ⟨hline, hmore⟩ := List.forall_mem_cons.1 hdata
    obtain ⟨cell, hcell⟩ := hline.exists_saysCell
    obtain ⟨data, hcells⟩ := ih hmore
    exact ⟨cell :: data, .cons hcell hcells⟩

end Source

/-! ## Written cells -/

namespace Image

/-- **A line with two fields is written as one.** -/
lemma IsRow.rowWrittenAs {first second : List Char → Prop} {line : List Char}
    (h : IsRow first second line) : RowWrittenAs first second line := by
  obtain ⟨a, b, hfields, ha, hb⟩ := h
  have hline : ¬ IsBlankLine line := by
    rw [← fields_eq_nil_iff, hfields]
    simp
  obtain ⟨front, solid, rest, rfl, hfront, hne, hsolid, hrest⟩ := exists_first_field hline
  rw [fields_append hfront hne hsolid hrest, List.cons.injEq] at hfields
  obtain ⟨rfl, hfields⟩ := hfields
  have hline' : ¬ IsBlankLine rest := by
    rw [← fields_eq_nil_iff, hfields]
    simp
  obtain ⟨between, solid', behind, rfl, hbetween, hne', hsolid', hbehind⟩ := exists_first_field hline'
  rw [fields_append hbetween hne' hsolid' hbehind, List.cons.injEq, fields_eq_nil_iff] at hfields
  obtain ⟨rfl, hfields⟩ := hfields
  have hapart : between ≠ [] := by
    rintro rfl
    obtain ⟨c, cs, rfl⟩ := List.exists_cons_of_ne_nil hne'
    have hblank : isBlank c = true := hrest c rfl
    rw [hsolid' c List.mem_cons_self] at hblank
    cases hblank
  have hrow := RowWrittenAs.fields ha hb hfront hbetween hapart hfields
  simpa only [List.append_assoc] using hrow

/-- Lines that are not blank are written in a row, with the blank lines between them. -/
lemma linesWrittenAs_of_forall₂ {α : Type} {row : α → List Char → Prop} {items : List α}
    {ls : List (List Char)}
    (h : List.Forall₂ row items (ls.filter fun line => ¬ IsBlankLine line)) :
    LinesWrittenAs row items ls := by
  induction ls generalizing items with
  | nil =>
    rw [List.filter_nil, List.forall₂_nil_right_iff] at h
    rw [h]
    exact .nil
  | cons line ls ih =>
    by_cases hline : IsBlankLine line
    · rw [List.filter_cons_of_neg (by simpa using hline)] at h
      exact .blank hline (ih h)
    · rw [List.filter_cons_of_pos (by simpa using hline)] at h
      obtain ⟨a, items, ha, hmore, rfl⟩ := List.forall₂_cons_right_iff.1 h
      exact .item ha (ih hmore)

end Image

namespace Source

/-- A line that says a cell is a line of the cell in an image. -/
lemma SaysCell.cellWrittenAs {cell : Int32 × Int32} {line : List Char} (h : SaysCell cell line) :
    Image.CellWrittenAs cell line := by
  obtain ⟨a, b, hfields, ha, hb⟩ := h
  exact Image.IsRow.rowWrittenAs
    ⟨a, b, hfields, .signed (Word.read?_eq_some_iff.1 ha), .signed (Word.read?_eq_some_iff.1 hb)⟩

/-- The separator of images and lines that say cells are the lines of an image without code. -/
lemma writtenAs_of_cells {data : List (Int32 × Int32)} {after : List (List Char)}
    (h : List.Forall₂ SaysCell data (after.filter fun line => ¬ Text.IsBlankLine line)) :
    Image.WrittenAs ⟨[], data⟩ (Image.separator :: after) := by
  refine ⟨[], [], [], after, rfl, .nil, isBlankLine_nil, isBlankLine_nil, ?_⟩
  exact Image.linesWrittenAs_of_forall₂ (h.imp fun _ _ hcell => hcell.cellWrittenAs)

/-- **Data without a mistake is data of an image.** Let the checker find no mistake in a source, and let
one of its lines be the separator. Then the lines behind the separator, with the separator of images in
front, are the lines of an image without code, whichever line end stands behind that separator. The image
has one cell for each line behind the separator that is not blank, in order, and its address and its word
are the numbers that the checker reads in this line. The text of the source behind its separator is one
such text.

**Proof sketch.** What the checker leaves behind the separator are data lines and then blank lines. A
number that it reads is written as a word, so the lines are written data of an image, and a written image
is read as it was meant. -/
theorem image_of_data_section {source word : List Char} {before after : List (List Char)}
    (hclean : (check source).diagnostics = []) (hword : IsSeparatorWord word)
    (hlines : lines source = before ++ word :: after) :
    ∃ data : List (Int32 × Int32),
      List.Forall₂ SaysCell data (after.filter fun line => ¬ IsBlankLine line) ∧
        (∀ text : String, HasLines text.toList ("-1".toList :: after) →
          Image.ofLines (readLines text.toUTF8) = .ok ⟨[], data⟩) ∧
        ∃ front tail, source = front ++ tail ∧ lines tail = after ∧
          ∀ ending ∈ [['\n'], ['\r', '\n']],
            HasLines ("-1".toList ++ (ending ++ tail)) ("-1".toList :: after) := by
  have hsource : IsSource .code (before ++ word :: after) := by
    rw [← hlines]
    exact (Scan.found_foldl_iff rfl rfl (lines source)).1 hclean
  obtain ⟨data, hdata⟩ := (IsSource.of_separator hword hsource).exists_cells
  refine ⟨data, hdata, fun text htext => ?_, ?_⟩
  · rw [readLines_toUTF8]
    exact (Image.ofLines_congr htext.map_trim_lines).trans
      (Image.ofLines_written (writtenAs_of_cells hdata))
  · obtain ⟨front, tail, hsplit, htail⟩ := exists_lines_behind hlines
    refine ⟨front, tail, hsplit, htail, fun ending hending => ?_⟩
    rw [← htail]
    exact .cons (by decide) hending (hasLines_lines tail)

/-- Data with the least and the greatest number, both line ends, signs and blank lines at the end. -/
theorem image_of_data_section_bounds :
    (check "HALT\nDATA \n-80000000 \t7fffFFFF \r\n+0\u30000000000001\n\n \n".toList).diagnostics = [] ∧
      ∃ data : List (Int32 × Int32),
        List.Forall₂ SaysCell data
          ["-80000000 \t7fffFFFF ".toList, "+0\u30000000000001".toList] ∧
          Image.ofLines (readLines
            "-1\n-80000000 \t7fffFFFF \r\n+0\u30000000000001\n\n \n".toUTF8) = .ok ⟨[], data⟩ := by
  let source : List Char :=
    "HALT\nDATA \n-80000000 \t7fffFFFF \r\n+0\u30000000000001\n\n \n".toList
  let after : List (List Char) :=
    ["-80000000 \t7fffFFFF ".toList, "+0\u30000000000001".toList, [], [' ']]
  have hclean : (check source).diagnostics = [] := by decide +kernel
  have hlines : lines source = ["HALT".toList] ++ "DATA ".toList :: after := by decide +kernel
  obtain ⟨data, hdata, hread, -⟩ := image_of_data_section hclean (by decide) hlines
  have hfilter : (after.filter fun line => ¬ IsBlankLine line) =
      ["-80000000 \t7fffFFFF ".toList, "+0\u30000000000001".toList] := by
    decide +kernel
  rw [hfilter] at hdata
  refine ⟨hclean, data, hdata, hread _ ?_⟩
  have hsplit : "-1\n-80000000 \t7fffFFFF \r\n+0\u30000000000001\n\n \n".toList =
      "-1".toList ++ ("\n".toList ++ ("-80000000 \t7fffFFFF ".toList ++ ("\r\n".toList ++
        ("+0\u30000000000001".toList ++ ("\n".toList ++ ([] ++ ("\n".toList ++
          ([' '] ++ ("\n".toList ++ []))))))))) := by
    decide +kernel
  rw [hsplit]
  exact .cons (by decide) (by decide) (.cons (by decide) (by decide) (.cons (by decide) (by decide)
    (.cons (by decide) (by decide) (.cons (by decide) (by decide) .nil))))

end Source

end AccumulatorMachine

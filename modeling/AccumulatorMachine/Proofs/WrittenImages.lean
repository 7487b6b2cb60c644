import AccumulatorMachine.Image
import AccumulatorMachine.Proofs.LineEnds
import AccumulatorMachine.Proofs.WrittenNumbers

/-!
# Written images

Every image can be written down, in many ways: a word is a signed number or a bit pattern, in either
letter case and with any zeros in front, and blanks and blank lines may stand wherever they do not tear
a field apart. Whichever way is taken, the reader finds the image that was written.

The separator is a number too, and it would be the start of a code line if it were not alone on its
line. So code lines and the separator are told apart by the number of their fields.

## Main definitions

* `Word.WrittenAs` — the texts that stand for a word.
* `Image.RowWrittenAs`, `Image.LinesWrittenAs` — lines of two fields, and such lines in a row.
* `Image.WrittenAs` — the lines that stand for an image.

## Main results

* `Image.twoFields_of_row` — the fields of a line are found again.
* `Image.readFrom_append` — lines in a row are read one after the other.
* `Image.readFrom_congr` — the reader does not mind blanks at the ends of lines.
* `Image.ofLines_readLines_written` — a written image is read as it was meant.
-/

set_option autoImplicit false

namespace AccumulatorMachine

open Text

/-! ## The grammar -/

/-- The texts that stand for a word: a signed number, or the bits of the word as a number. -/
inductive Word.WrittenAs (w : Int32) : List Char → Prop
  | signed {text : List Char} (h : Numeral.Spells text w.toInt) : WrittenAs w text
  | bits {text : List Char} (h : Numeral.SpellsNat text (pattern w)) : WrittenAs w text

namespace Image

/-- The lines of two fields. Blanks set the fields apart, and there may be others around them. -/
inductive RowWrittenAs (first second : List Char → Prop) : List Char → Prop
  | fields {before a between b behind : List Char} (ha : first a) (hb : second b)
    (hbefore : IsBlankLine before) (hbetween : IsBlankLine between) (hapart : between ≠ [])
    (hbehind : IsBlankLine behind) :
    RowWrittenAs first second (before ++ (a ++ (between ++ b) ++ behind))

/-- The lines of an instruction: the opcode and the argument. -/
def InstructionWrittenAs (i : Instruction) : List Char → Prop :=
  RowWrittenAs (Numeral.SpellsNat · i.opcode.toNat) (Word.WrittenAs i.arg)

/-- The lines of a cell: the address and the word. -/
def CellWrittenAs (cell : Int32 × Int32) : List Char → Prop :=
  RowWrittenAs (Word.WrittenAs cell.1) (Word.WrittenAs cell.2)

/-- A line for each of some items, in order, and blank lines anywhere. -/
inductive LinesWrittenAs {α : Type} (row : α → List Char → Prop) : List α → List (List Char) → Prop
  | nil : LinesWrittenAs row [] []
  | blank {items : List α} {line : List Char} {lines : List (List Char)} (h : IsBlankLine line)
    (hmore : LinesWrittenAs row items lines) : LinesWrittenAs row items (line :: lines)
  | item {a : α} {items : List α} {line : List Char} {lines : List (List Char)} (h : row a line)
    (hmore : LinesWrittenAs row items lines) : LinesWrittenAs row (a :: items) (line :: lines)

/-- The lines of an image: its code, the separator, perhaps among blanks, and its data. -/
def WrittenAs (image : Image) (lines : List (List Char)) : Prop :=
  ∃ code before behind data, lines = code ++ (before ++ (separator ++ behind)) :: data ∧
    LinesWrittenAs InstructionWrittenAs image.code code ∧ IsBlankLine before ∧
    IsBlankLine behind ∧ LinesWrittenAs CellWrittenAs image.data data

/-! ## Fields -/

/-- Two fields are found exactly where blanks set two texts apart. -/
lemma twoFields_eq_ok_iff {line a b : List Char} :
    twoFields line = .ok (a, b) ↔ Text.fields line = [a, b] := by
  unfold twoFields
  split
  · rename_i x y heq
    simp [heq]
  · rename_i hne
    simp only [reduceCtorEq, false_iff]
    exact hne a b

/-- The fields of a line are found again when the line is trimmed. -/
lemma twoFields_of_row {first second : List Char → Prop} {line : List Char}
    (hfirst : ∀ a, first a → a ≠ [] ∧ ∀ c ∈ a, isBlank c = false)
    (hsecond : ∀ b, second b → b ≠ [] ∧ ∀ c ∈ b, isBlank c = false)
    (h : RowWrittenAs first second line) :
    ∃ a b, first a ∧ second b ∧ twoFields (trim line) = .ok (a, b) := by
  obtain @⟨before, a, between, b, behind, ha, hb, hbefore, hbetween, hapart, hbehind⟩ := h
  refine ⟨a, b, ha, hb, ?_⟩
  obtain ⟨hane, hasolid⟩ := hfirst a ha
  obtain ⟨hbne, hbsolid⟩ := hsecond b hb
  have htrim : trim (before ++ (a ++ (between ++ b) ++ behind)) = a ++ (between ++ b) := by
    rw [trim_append hbefore hbehind]
    apply trim_eq_self
    · intro c hc
      rw [List.head?_append_of_ne_nil _ hane] at hc
      exact hasolid c (List.mem_of_mem_head? hc)
    · intro c hc
      rw [List.getLast?_append_of_ne_nil _ (by simp [hbne]),
        List.getLast?_append_of_ne_nil _ hbne] at hc
      exact hbsolid c (List.mem_of_mem_getLast? hc)
  have hbehindFirst : ∀ c ∈ (between ++ b).head?, isBlank c = true := by
    intro c hc
    rw [List.head?_append_of_ne_nil _ hapart] at hc
    exact hbetween c (List.mem_of_mem_head? hc)
  have hone : Text.fields ([] ++ (a ++ (between ++ b))) = a :: Text.fields (between ++ b) :=
    fields_append isBlankLine_nil hane hasolid hbehindFirst
  have htwo : Text.fields (between ++ (b ++ [])) = b :: Text.fields [] :=
    fields_append hbetween hbne hbsolid (by simp)
  rw [List.append_nil, fields_nil] at htwo
  rw [htrim, twoFields_eq_ok_iff]
  exact hone.trans (by rw [htwo])

/-- A text without a blank in it has not two fields. -/
lemma ne_of_twoFields {line text : List Char} {found : List Char × List Char}
    (h : twoFields line = .ok found) (htext : ∀ c ∈ text, isBlank c = false) : line ≠ text := by
  rintro rfl
  have htrim : trim line = line := trim_eq_self_of_forall htext
  have hfields : Text.fields line = [found.1, found.2] := twoFields_eq_ok_iff.1 h
  by_cases hne : line = []
  · rw [hne, fields_nil] at hfields
    cases hfields
  · rw [fields_of_solid (by rwa [htrim]) (by rwa [htrim])] at hfields
    simp at hfields

end Image

/-! ## Numbers -/

namespace Word.WrittenAs

variable {w : Int32} {text : List Char}

/-- A written word has no blank in it. -/
lemma solid (h : Word.WrittenAs w text) : text ≠ [] ∧ ∀ c ∈ text, isBlank c = false := by
  cases h with
  | signed h => exact ⟨h.ne_nil, h.isBlank⟩
  | bits h => exact ⟨h.ne_nil, h.spells.isBlank⟩

/-- A written word is read as the word. -/
lemma read_eq (h : Word.WrittenAs w text) : Word.read text = .ok w := by
  cases h with
  | signed h => exact Word.read_of_spells h
  | bits h => exact Word.read_of_spellsNat_pattern h

end Word.WrittenAs

namespace Image

/-! ## One line -/

/-- A written instruction is read, and its line is neither blank nor the separator. -/
lemma codeLine_of_written {i : Instruction} {line : List Char} (h : InstructionWrittenAs i line) :
    trim line ≠ [] ∧ trim line ≠ separator ∧ codeLine (trim line) = .ok i := by
  obtain ⟨a, b, ha, hb, hfields⟩ := twoFields_of_row
    (fun _ h => ⟨h.ne_nil, h.spells.isBlank⟩) (fun _ h => h.solid) h
  refine ⟨ne_of_twoFields hfields (by simp),
    ne_of_twoFields hfields (by simp [separator, isBlank]), ?_⟩
  have hopcode : i.opcode.toNat ≤ 255 := by
    have := i.opcode.toNat_lt
    omega
  rw [codeLine, hfields]
  show ((readOpcode a).bind fun opcode => (Word.read b).map (Instruction.mk opcode)).mapError _ = _
  rw [readOpcode_of_spellsNat ha hopcode, hb.read_eq, UInt8.ofNat_toNat]
  rfl

/-- A written cell is read, and its line is not blank. -/
lemma dataLine_of_written {cell : Int32 × Int32} {line : List Char} (h : CellWrittenAs cell line) :
    trim line ≠ [] ∧ dataLine (trim line) = .ok cell := by
  obtain ⟨a, b, ha, hb, hfields⟩ := twoFields_of_row (fun _ h => h.solid) (fun _ h => h.solid) h
  refine ⟨ne_of_twoFields hfields (by simp), ?_⟩
  rw [dataLine, hfields]
  show ((Word.read a).bind fun address => (Word.read b).map (Prod.mk address)).mapError _ = _
  rw [ha.read_eq, hb.read_eq]
  rfl

/-! ## Lines in a row -/

/-- The reader sees the trimmed lines only. -/
lemma readFrom_congr {ls ls' : List (List Char)} (h : ls.map trim = ls'.map trim) (number : Nat)
    (s : Draft) : readFrom number s (ls.map .ok) = readFrom number s (ls'.map .ok) := by
  induction ls generalizing ls' number s with
  | nil =>
    rw [List.map_nil, List.nil_eq, List.map_eq_nil_iff] at h
    rw [h]
  | cons line ls ih =>
    cases ls' with
    | nil => cases h
    | cons line' ls' =>
      simp only [List.map_cons, List.cons.injEq] at h
      obtain ⟨hline, hls⟩ := h
      rw [List.map_cons, List.map_cons, readFrom, readFrom, hline, ih hls]
      split
      · rfl
      · cases s.line (trim line') with
        | error e => rfl
        | ok s => exact ih hls (number + 1) s

/-- Blanks around the lines do not matter to the image. -/
lemma ofLines_congr {ls ls' : List (List Char)} (h : ls.map trim = ls'.map trim) :
    ofLines (ls.map .ok) = ofLines (ls'.map .ok) := by
  rw [ofLines, ofLines, readFrom_congr h]

/-- Items that are written in a row are read one after the other, each from its line. The draft `put xs`
is the one that has read the items `xs` so far. -/
lemma readFrom_append {α : Type} {row : α → List Char → Prop} {put : Array α → Draft}
    (hrow : ∀ xs a line, row a line →
      trim line ≠ [] ∧ (put xs).line (trim line) = .ok (put (xs.push a)))
    {items : List α} {ls : List (List Char)} (h : LinesWrittenAs row items ls) (number : Nat)
    (xs : Array α) (rest : List ReadLine) :
    readFrom number (put xs) (ls.map .ok ++ rest) =
      readFrom (number + ls.length) (put (xs ++ items.toArray)) rest := by
  induction h generalizing number xs with
  | nil => simp
  | @blank items line lines hblank _ ih =>
    rw [List.map_cons, List.cons_append, readFrom, if_pos ((trim_eq_nil_iff line).2 hblank), ih,
      List.length_cons]
    congr 1
    omega
  | @item a items line lines ha _ ih =>
    obtain ⟨hne, hline⟩ := hrow xs a line ha
    have hitems : xs.push a ++ items.toArray = xs ++ (a :: items).toArray := by simp
    rw [List.map_cons, List.cons_append, readFrom, if_neg hne, hline]
    show readFrom (number + 1) (put (xs.push a)) _ = _
    rw [ih, hitems, List.length_cons]
    congr 1
    omega

/-- Code lines give their instructions. -/
lemma readFrom_code {code : List Instruction} {ls : List (List Char)}
    (h : LinesWrittenAs InstructionWrittenAs code ls) (number : Nat) (rest : List ReadLine) :
    readFrom number {} (ls.map .ok ++ rest) =
      readFrom (number + ls.length) { code := code.toArray } rest := by
  have hrow : ∀ (xs : Array Instruction) i line, InstructionWrittenAs i line →
      trim line ≠ [] ∧
        Draft.line { code := xs } (trim line) = .ok { code := xs.push i } := by
    intro xs i line hi
    obtain ⟨hne, hseparator, hline⟩ := codeLine_of_written hi
    refine ⟨hne, ?_⟩
    rw [Draft.line, if_neg Bool.false_ne_true, if_neg hseparator, hline]
    rfl
  have hread := readFrom_append hrow h number #[] rest
  rwa [Array.empty_append] at hread

/-- Data lines, behind the separator, give their cells. -/
lemma readFrom_data {data : List (Int32 × Int32)} {ls : List (List Char)}
    (h : LinesWrittenAs CellWrittenAs data ls) (number : Nat) (code : Array Instruction) :
    readFrom number { code := code, separated := true } (ls.map .ok) =
      .ok { code := code, data := data.toArray, separated := true } := by
  have hrow : ∀ (xs : Array (Int32 × Int32)) cell line, CellWrittenAs cell line →
      trim line ≠ [] ∧
        Draft.line { code := code, data := xs, separated := true } (trim line) =
          .ok { code := code, data := xs.push cell, separated := true } := by
    intro xs cell line hcell
    obtain ⟨hne, hline⟩ := dataLine_of_written hcell
    refine ⟨hne, ?_⟩
    rw [Draft.line, if_pos rfl, hline]
    rfl
  have hread := readFrom_append hrow h number #[] []
  rwa [Array.empty_append, List.append_nil] at hread

/-- The lines of a written image are read as the image.

**Proof sketch.** The code lines leave a draft with the code, in which the separator is looked for. It
is found, and the data lines that follow complete the draft. -/
lemma ofLines_written {image : Image} {ls : List (List Char)} (h : image.WrittenAs ls) :
    ofLines (ls.map .ok) = .ok image := by
  obtain ⟨code, before, behind, data, rfl, hcode, hbefore, hbehind, hdata⟩ := h
  have htrim : trim (before ++ (separator ++ behind)) = separator := by
    rw [trim_append hbefore hbehind]
    decide
  have hnot : ¬ separator = [] := by decide
  rw [ofLines, List.map_append, List.map_cons, readFrom_code hcode, readFrom, htrim, if_neg hnot]
  show Except.map _ (readFrom _ { code := image.code.toArray, separated := true } _) = _
  rw [readFrom_data hdata]
  rfl

/-! ## Texts -/

/-- A row in the plain style: two texts with a space between them. -/
def plainRow (a b : String) : List Char := a.toList ++ ([' '] ++ b.toList)

/-- A word in the plain style: the digits of its bits. -/
def plainWord (w : Int32) : String := Numeral.lowerHex 1 (Word.pattern w)

/-- The lines of an image in the plain style. -/
def plainLines (image : Image) : List (List Char) :=
  image.code.map (fun i => plainRow (Numeral.lowerHex 2 i.opcode.toNat) (plainWord i.arg)) ++
    separator :: image.data.map (fun cell => plainRow (plainWord cell.1) (plainWord cell.2))

/-- A word in plain style spells that word. -/
lemma writtenAs_plainWord (w : Int32) : Word.WrittenAs w (plainWord w).toList :=
  .bits (Numeral.spellsNat_lowerHex 1 (Word.pattern w))

/-- Two texts with a blank between them are a row of the two. -/
lemma rowWrittenAs_plainRow {first second : List Char → Prop} {a b : String} (ha : first a.toList)
    (hb : second b.toList) : RowWrittenAs first second (plainRow a b) := by
  have hrow : RowWrittenAs first second ([] ++ (a.toList ++ ([' '] ++ b.toList) ++ [])) :=
    .fields ha hb isBlankLine_nil (by decide) (by simp) isBlankLine_nil
  rwa [List.nil_append, List.append_nil] at hrow

/-- A list is written line by line, if each item has a line. -/
lemma linesWrittenAs_map {α : Type} {row : α → List Char → Prop} {write : α → List Char}
    (h : ∀ a, row a (write a)) (items : List α) : LinesWrittenAs row items (items.map write) := by
  induction items with
  | nil => exact .nil
  | cons a items ih => exact .item (h a) ih

/-- The lines in the plain style stand for the image. -/
lemma writtenAs_plainLines (image : Image) : image.WrittenAs image.plainLines := by
  refine ⟨_, [], [], _, rfl, linesWrittenAs_map (fun i => ?_) _, isBlankLine_nil, isBlankLine_nil,
    linesWrittenAs_map (fun cell => ?_) _⟩
  · exact rowWrittenAs_plainRow (Numeral.spellsNat_lowerHex 2 _) (writtenAs_plainWord _)
  · exact rowWrittenAs_plainRow (writtenAs_plainWord _) (writtenAs_plainWord _)

/-- A plain row is one line, for no line feed is in its two texts. -/
lemma feed_notMem_plainRow {a b : String} (ha : ∀ c ∈ a.toList, isBlank c = false)
    (hb : ∀ c ∈ b.toList, isBlank c = false) : '\n' ∉ plainRow a b := by
  have hfeed : isBlank '\n' = true := by decide
  intro h
  simp only [plainRow, List.mem_append, List.mem_singleton] at h
  rcases h with h | h | h
  · rw [ha _ h] at hfeed
    cases hfeed
  · cases h
  · rw [hb _ h] at hfeed
    cases hfeed

/-- No line in the plain style has a line feed in it. -/
lemma feed_notMem_plainLines (image : Image) : ∀ line ∈ image.plainLines, '\n' ∉ line := by
  have hword : ∀ w, ∀ c ∈ (plainWord w).toList, isBlank c = false :=
    fun w => (writtenAs_plainWord w).solid.2
  intro line hline
  simp only [plainLines, List.mem_append, List.mem_cons, List.mem_map] at hline
  rcases hline with ⟨i, -, rfl⟩ | rfl | ⟨cell, -, rfl⟩
  · exact feed_notMem_plainRow (Numeral.spellsNat_lowerHex 2 _).spells.isBlank (hword _)
  · decide
  · exact feed_notMem_plainRow (hword _) (hword _)

/-- **A written image is read as it was meant.** Every image can be written down. From the bytes of
every text that is made of the lines of an image, with line feeds or carriage returns and line feeds
at their ends, exactly this image is read. -/
theorem ofLines_readLines_written (image : Image) :
    (∃ (text : String) (ls : List (List Char)), HasLines text.toList ls ∧ image.WrittenAs ls) ∧
      ∀ (text : String) (ls : List (List Char)), HasLines text.toList ls → image.WrittenAs ls →
        ofLines (readLines text.toUTF8) = .ok image := by
  constructor
  · obtain ⟨text, htext⟩ := exists_hasLines image.feed_notMem_plainLines
    exact ⟨String.ofList text, _, by rwa [String.toList_ofList], image.writtenAs_plainLines⟩
  · intro text ls htext hls
    have hcongr : ofLines ((lines text.toList).map .ok) = ofLines (ls.map .ok) := by
      rw [ofLines, ofLines, readFrom_congr htext.map_trim_lines]
    rw [readLines_toUTF8, hcongr, ofLines_written hls]

/-- An image in several styles at once: letters in both cases, a sign, zeros in front, the bit pattern of
a negative word, blanks of several kinds, a blank line, and both line ends. -/
theorem ofLines_readLines_written_styles :
    ∃ (text : String) (ls : List (List Char)) (image : Image),
      text = "1B \t+0C\r\n\r\n -1 \nFFFFFFFb\u3000-00a" ∧ image = ⟨[⟨0x1B, 12⟩], [(-5, -10)]⟩ ∧
        HasLines text.toList ls ∧ image.WrittenAs ls ∧
        ofLines (readLines text.toUTF8) = .ok image := by
  let text : String := "1B \t+0C\r\n\r\n -1 \nFFFFFFFb\u3000-00a"
  let ls : List (List Char) :=
    ["1B \t+0C".toList, [], " -1 ".toList, "FFFFFFFb\u3000-00a".toList]
  let image : Image := ⟨[⟨0x1B, 12⟩], [(-5, -10)]⟩
  have hinstruction : InstructionWrittenAs ⟨0x1B, 12⟩ "1B \t+0C".toList := by
    have hsplit : "1B \t+0C".toList = [] ++ ("1B".toList ++ (" \t".toList ++ "+0C".toList) ++ []) := by
      decide
    rw [hsplit]
    exact .fields (by decide : Numeral.SpellsNat _ _) (.signed (by decide))
      isBlankLine_nil (by decide) (by decide) isBlankLine_nil
  have hcell : CellWrittenAs (-5, -10) "FFFFFFFb\u3000-00a".toList := by
    have hsplit : "FFFFFFFb\u3000-00a".toList =
        [] ++ ("FFFFFFFb".toList ++ ("\u3000".toList ++ "-00a".toList) ++ []) := by
      decide
    rw [hsplit]
    exact .fields (.bits (by decide)) (.signed (by decide))
      isBlankLine_nil (by decide) (by decide) isBlankLine_nil
  have hls : image.WrittenAs ls :=
    ⟨["1B \t+0C".toList, []], [' '], [' '], ["FFFFFFFb\u3000-00a".toList], by decide,
      .item hinstruction (.blank isBlankLine_nil .nil), by decide, by decide, .item hcell .nil⟩
  have htext : HasLines text.toList ls := by
    have hsplit : text.toList = "1B \t+0C".toList ++ ("\r\n".toList ++ ([] ++ ("\r\n".toList ++
        (" -1 ".toList ++ ("\n".toList ++ "FFFFFFFb\u3000-00a".toList))))) := by
      decide
    rw [hsplit]
    exact .cons (by decide) (by decide) (.cons (by decide) (by decide)
      (.cons (by decide) (by decide) (.last (by decide) (by decide))))
  exact ⟨text, ls, image, rfl, rfl, htext, hls, (ofLines_readLines_written image).2 text ls htext hls⟩

end Image

end AccumulatorMachine

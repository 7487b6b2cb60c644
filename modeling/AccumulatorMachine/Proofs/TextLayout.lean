import AccumulatorMachine.Text.Blank
import AccumulatorMachine.Text.Capitals
import AccumulatorMachine.Text.Lines
import Mathlib.Tactic
import Mathlib.Data.List.DropRight

/-!
# The layout of a text

Facts about texts that are read line by line. Cutting a text from the right gives the lines that
splitting it at its line feeds does. Blanks around a line do not matter to its fields. And a trimmed
line without a blank in it is its only field, which is the case for every line that is a word in the
letters `A` to `Z`, in whatever letter case.

## Main definitions

* `Text.splitLines` — the lines of a text, by splitting it at its line feeds.

## Main results

* `Text.lines_eq_splitLines` — they are the lines of the text.
* `Text.fields_blanks_append`, `Text.fields_trim` — the fields of a line do not depend on blanks around it.
* `Text.fields_of_solid` — a trimmed line without a blank is the only field of its line.
* `Text.isBlank_of_capital` — a character that is written in capital letters is no blank.
-/

set_option autoImplicit false

namespace AccumulatorMachine.Text

/-! ## Lines -/

/-- A piece in front of a line feed, without the carriage return at its end. -/
def dropReturn (piece : List Char) : List Char :=
  if piece.getLast? = some '\r' then piece.dropLast else piece

/-- The lines that the pieces between line feeds make. The last piece ends at no line feed: it is no
line if it is empty, and otherwise it is kept whole. -/
def linesOfPieces : List (List Char) → List (List Char)
  | [] => []
  | [piece] => if piece = [] then [] else [piece]
  | piece :: pieces => dropReturn piece :: linesOfPieces pieces

/-- The lines of a text, by splitting it at its line feeds. -/
def splitLines (text : List Char) : List (List Char) := linesOfPieces (text.splitOn '\n')

/-- A carriage return at the end stays at the end of a longer piece. -/
lemma dropReturn_cons {c : Char} {piece : List Char} (h : piece = [] → c ≠ '\r') :
    dropReturn (c :: piece) = c :: dropReturn piece := by
  cases piece with
  | nil => simp [dropReturn, h rfl]
  | cons d ds =>
    simp only [dropReturn, List.getLast?_cons_cons, List.dropLast_cons_cons]
    split <;> rfl

/-- A line feed ends an empty piece. -/
lemma splitOn_feed (cs : List Char) : ('\n' :: cs).splitOn '\n' = [] :: cs.splitOn '\n' := by
  rw [List.splitOn_cons_eq_if_modifyHead, if_pos (beq_self_eq_true '\n')]

/-- Any other character joins the first piece. -/
lemma splitOn_cons_of_ne {c : Char} {cs piece : List Char} {pieces : List (List Char)} (hc : c ≠ '\n')
    (h : cs.splitOn '\n' = piece :: pieces) :
    (c :: cs).splitOn '\n' = (c :: piece) :: pieces := by
  rw [List.splitOn_cons_eq_if_modifyHead, if_neg (by simpa using hc), h, List.modifyHead_cons]

/-- A text starts with a line feed exactly when its first piece is empty and has another one behind
it. -/
lemma head?_eq_feed_iff {cs piece : List Char} {pieces : List (List Char)}
    (h : cs.splitOn '\n' = piece :: pieces) :
    cs.head? = some '\n' ↔ piece = [] ∧ pieces ≠ [] := by
  cases cs with
  | nil =>
    cases h
    simp
  | cons d ds =>
    obtain ⟨next, others, hds⟩ := List.exists_cons_of_ne_nil (List.splitOn_ne_nil '\n' ds)
    by_cases hd : d = '\n'
    · subst hd
      rw [splitOn_feed, hds] at h
      cases h
      simp
    · rw [splitOn_cons_of_ne hd hds] at h
      cases h
      simp [hd]

/-- **The lines of a text are those of its pieces between line feeds.**

**Proof sketch.** Induction on the text. A character in front joins the first piece, and so the first
line, unless it is a line feed, or the carriage return of an empty piece that ends at one. -/
theorem lines_eq_splitLines (text : List Char) : lines text = splitLines text := by
  induction text with
  | nil => rfl
  | cons c cs ih =>
    have hcut : lines (c :: cs) =
        if c = '\n' then [] :: lines cs
        else if c = '\r' ∧ cs.head? = some '\n' then lines cs
        else pushFirst c (lines cs) := cutLines_cons '\n' '\r' c cs
    obtain ⟨piece, pieces, hpieces⟩ := List.exists_cons_of_ne_nil (List.splitOn_ne_nil '\n' cs)
    have hhead := head?_eq_feed_iff hpieces
    simp only [hhead] at hcut
    rw [hcut, ih, splitLines, splitLines]
    by_cases hfeed : c = '\n'
    · rw [if_pos hfeed, hfeed, splitOn_feed, hpieces]
      rfl
    · rw [if_neg hfeed, splitOn_cons_of_ne hfeed hpieces, hpieces]
      cases pieces with
      | nil =>
        -- No line feed follows, so this is the last piece, which is kept whole.
        rw [if_neg (fun h => h.2.2 rfl)]
        by_cases hempty : piece = []
        · simp [linesOfPieces, pushFirst, hempty]
        · simp [linesOfPieces, pushFirst, hempty]
      | cons next pieces =>
        by_cases hret : c = '\r' ∧ piece = [] ∧ next :: pieces ≠ []
        · -- The carriage return is all of its piece, and disappears from it.
          obtain ⟨rfl, rfl, -⟩ := hret
          rfl
        · rw [if_neg hret]
          show pushFirst c (_ :: _) = dropReturn (c :: piece) :: _
          rw [dropReturn_cons (fun hempty hc => hret ⟨hc, hempty, List.cons_ne_nil _ _⟩)]
          rfl

/-! ## Fields -/

/-- The empty line is blank. -/
lemma isBlankLine_nil : IsBlankLine [] := fun _ hc => absurd hc List.not_mem_nil

/-- The empty line has no field. -/
lemma fields_nil : fields [] = [] := (fields_eq_nil_iff []).2 isBlankLine_nil

/-- Behind the trimmed line stand blanks only. -/
lemma exists_trim_append (line : List Char) :
    ∃ blanks, line.dropWhile isBlank = trim line ++ blanks ∧ ∀ c ∈ blanks, isBlank c = true := by
  refine ⟨(line.dropWhile isBlank).rtakeWhile isBlank, ?_, ?_⟩
  · exact List.rdropWhile_append_rtakeWhile.symm
  · intro c hc
    exact List.mem_rtakeWhile_imp hc

/-- What stands up to a character that is not blank is not trimmed off the end. -/
lemma trimEnd_append_cons {c : Char} (hc : isBlank c = false) (front rest : List Char) :
    trimEnd (front ++ c :: rest) = front ++ c :: trimEnd rest := by
  have hdrop : (rest.reverse ++ c :: front.reverse).dropWhile isBlank =
      rest.reverse.dropWhile isBlank ++ c :: front.reverse := by
    rw [List.dropWhile_append]
    split
    · rename_i hempty
      rw [List.isEmpty_iff.1 hempty]
      simp [hc]
    · rfl
  have hreverse : (front ++ c :: rest).reverse = rest.reverse ++ c :: front.reverse := by simp
  rw [trimEnd, trimEnd, hreverse, hdrop]
  simp

/-- A run of characters that are not blank ends at the blank behind it. -/
lemma span_solid {solid rest : List Char} (hsolid : ∀ c ∈ solid, isBlank c = false)
    (hrest : ∀ c ∈ rest.head?, isBlank c = true) :
    (solid ++ rest).takeWhile (!isBlank ·) = solid ∧
      (solid ++ rest).dropWhile (!isBlank ·) = rest := by
  have hall : ∀ c ∈ solid, (!isBlank c) = true := by
    intro c hc
    rw [hsolid c hc]
    rfl
  rw [List.takeWhile_append_of_pos hall, List.dropWhile_append_of_pos hall]
  cases rest with
  | nil => simp
  | cons b bs =>
    have hb : isBlank b = true := hrest b rfl
    simp [hb]

/-- A run of characters that are not blank, with a blank behind it, is the first field. -/
lemma fields_append {before solid rest : List Char} (hbefore : IsBlankLine before) (hne : solid ≠ [])
    (hsolid : ∀ c ∈ solid, isBlank c = false) (hrest : ∀ c ∈ rest.head?, isBlank c = true) :
    fields (before ++ (solid ++ rest)) = solid :: fields rest := by
  obtain ⟨c, cs, rfl⟩ := List.exists_cons_of_ne_nil hne
  have hstart : (before ++ (c :: cs ++ rest)).dropWhile isBlank = c :: (cs ++ rest) := by
    rw [List.dropWhile_append_of_pos hbefore]
    simp [hsolid c List.mem_cons_self]
  obtain ⟨htake, hdrop⟩ := span_solid (fun d hd => hsolid d (List.mem_cons_of_mem c hd)) hrest
  rw [fields]
  split
  · rename_i hnil
    rw [hstart] at hnil
    cases hnil
  · rename_i d ds hds
    rw [hstart] at hds
    obtain ⟨rfl, rfl⟩ := List.cons.inj hds
    rw [htake, hdrop]

/-- A line that is not blank has a first run of characters that are not blank. -/
lemma exists_first_field {line : List Char} (h : ¬ IsBlankLine line) :
    ∃ before solid rest, line = before ++ (solid ++ rest) ∧ IsBlankLine before ∧ solid ≠ [] ∧
      (∀ c ∈ solid, isBlank c = false) ∧ ∀ c ∈ rest.head?, isBlank c = true := by
  have hne : line.dropWhile isBlank ≠ [] := (dropWhile_eq_nil_iff isBlank line).not.2 h
  refine ⟨line.takeWhile isBlank, (line.dropWhile isBlank).takeWhile (!isBlank ·),
    (line.dropWhile isBlank).dropWhile (!isBlank ·), ?_, fun c hc => List.mem_takeWhile_imp hc, ?_,
    fun c hc => by simpa using List.mem_takeWhile_imp hc, fun c hc => ?_⟩
  · rw [List.takeWhile_append_dropWhile, List.takeWhile_append_dropWhile]
  · obtain ⟨c, cs, hcs⟩ := List.exists_cons_of_ne_nil hne
    have hc : isBlank c = false := by
      have hhead := List.head_dropWhile_not isBlank hne
      simpa only [hcs, List.head_cons] using hhead
    simp [hcs, hc]
  · have hhead := List.head?_dropWhile_not (!isBlank ·) (line.dropWhile isBlank)
    rw [hc] at hhead
    simpa using hhead

/-- Blanks around a line do not matter to its fields. -/
lemma fields_blanks_append {before behind : List Char} (hbefore : IsBlankLine before)
    (hbehind : IsBlankLine behind) (line : List Char) :
    fields (before ++ (line ++ behind)) = fields line := by
  by_cases hline : IsBlankLine line
  · have hall : IsBlankLine (before ++ (line ++ behind)) :=
      List.forall_mem_append.2 ⟨hbefore, List.forall_mem_append.2 ⟨hline, hbehind⟩⟩
    rw [(fields_eq_nil_iff _).2 hall, (fields_eq_nil_iff _).2 hline]
  · obtain ⟨blanks, solid, rest, rfl, hblanks, hne, hsolid, hrest⟩ := exists_first_field hline
    have hshorter : rest.length < (blanks ++ (solid ++ rest)).length := by
      have := List.length_pos_iff.2 hne
      simp only [List.length_append]
      omega
    have hnext : ∀ c ∈ (rest ++ behind).head?, isBlank c = true := by
      cases rest with
      | nil => exact fun c hc => hbehind c (List.mem_of_mem_head? hc)
      | cons d ds => exact hrest
    have ih := fields_blanks_append isBlankLine_nil hbehind rest
    have heq : before ++ (blanks ++ (solid ++ rest) ++ behind) =
        (before ++ blanks) ++ (solid ++ (rest ++ behind)) := by
      simp only [List.append_assoc]
    rw [heq, fields_append (List.forall_mem_append.2 ⟨hbefore, hblanks⟩) hne hsolid hnext,
      fields_append hblanks hne hsolid hrest]
    exact congrArg (solid :: ·) ih
termination_by line.length

/-- A trimmed line has the fields of the line. -/
lemma fields_trim (line : List Char) : fields (trim line) = fields line := by
  obtain ⟨blanks, hline, hblanks⟩ := exists_trim_append line
  have hbefore : IsBlankLine (line.takeWhile isBlank) := fun c hc => List.mem_takeWhile_imp hc
  have heq : line = line.takeWhile isBlank ++ (trim line ++ blanks) := by
    rw [← hline, List.takeWhile_append_dropWhile]
  calc fields (trim line)
      = fields (line.takeWhile isBlank ++ (trim line ++ blanks)) :=
        (fields_blanks_append hbefore hblanks (trim line)).symm
    _ = fields line := by rw [← heq]

/-- There is no blank in a field. -/
lemma isBlank_of_mem_fields {line field : List Char} (h : field ∈ fields line) :
    ∀ c ∈ field, isBlank c = false := by
  by_cases hline : IsBlankLine line
  · rw [(fields_eq_nil_iff _).2 hline] at h
    cases h
  · obtain ⟨blanks, solid, rest, rfl, hblanks, hne, hsolid, hrest⟩ := exists_first_field hline
    have hshorter : rest.length < (blanks ++ (solid ++ rest)).length := by
      have := List.length_pos_iff.2 hne
      simp only [List.length_append]
      omega
    rw [fields_append hblanks hne hsolid hrest] at h
    rcases List.mem_cons.1 h with rfl | hmem
    · exact hsolid
    · exact isBlank_of_mem_fields hmem
termination_by line.length

/-- A trimmed line without a blank in it is the only field of its line. -/
lemma fields_of_solid {line : List Char} (hne : trim line ≠ [])
    (hsolid : ∀ c ∈ trim line, isBlank c = false) : fields line = [trim line] := by
  obtain ⟨blanks, hline, hblanks⟩ := exists_trim_append line
  have hbefore : IsBlankLine (line.takeWhile isBlank) := fun c hc => List.mem_takeWhile_imp hc
  have hbehind : ∀ c ∈ blanks.head?, isBlank c = true :=
    fun c hc => hblanks c (List.mem_of_mem_head? hc)
  calc fields line
      = fields (line.takeWhile isBlank ++ (trim line ++ blanks)) := by
        rw [← hline, List.takeWhile_append_dropWhile]
    _ = trim line :: fields blanks := fields_append hbefore hne hsolid hbehind
    _ = [trim line] := by rw [(fields_eq_nil_iff blanks).2 hblanks]

/-- A character whose upper case is written in the letters `A` to `Z` is no blank.

**Proof sketch.** A blank is not among the characters with an upper case of their own, so it is its own
upper case, and it is no letter. -/
lemma isBlank_of_capital {c : Char} (h : ∀ x ∈ capital c, x.isUpper = true) : isBlank c = false := by
  rw [Bool.eq_false_iff]
  intro hblank
  have hrange : c.toNat < 0x41 ∨ 0x85 ≤ c.toNat := by
    simp only [isBlank, Bool.or_eq_true, Bool.and_eq_true, decide_eq_true_eq, beq_iff_eq] at hblank
    omega
  have hupper : c.toUpper = c := by
    unfold Char.toUpper
    rw [dif_neg]
    intro hlower
    have hlow : 97 ≤ c.toNat := hlower.1
    have hhigh : c.toNat ≤ 122 := hlower.2
    omega
  unfold capital at h
  split at h
  all_goals try exact absurd hblank (by decide)
  rw [hupper] at h
  have hletter : c.isUpper = true := h c List.mem_cons_self
  obtain ⟨hlow, hhigh⟩ : 65 ≤ c.toNat ∧ c.toNat ≤ 90 := of_decide_eq_true hletter
  omega

/-- A line that is a word in the letters `A` to `Z`, in whatever letter case, has this word as its only
field. -/
lemma fields_of_capitals {line word : List Char} (hne : word ≠ [])
    (hword : ∀ x ∈ word, x.isUpper = true) (h : capitals (trim line) = word) :
    fields line = [trim line] := by
  apply fields_of_solid
  · intro hnil
    rw [hnil] at h
    exact hne h.symm
  · intro c hc
    apply isBlank_of_capital
    intro x hx
    apply hword
    rw [← h]
    exact List.mem_flatMap.2 ⟨c, hc, hx⟩

end AccumulatorMachine.Text

import AccumulatorMachine.Proofs.LineTrees
import AccumulatorMachine.Proofs.ObservingLines
import AccumulatorMachine.Proofs.TextLines

/-!
# Comments at the end of a line

A comment at the end of a line changes nothing. What the readers take from a line they also take from the
line with a comment behind it, and where they refuse a line they refuse it with the comment. A word or a
number ends where the mark of a comment begins, and in the place of a further token a comment is skipped
to the end of the line.

Only descriptions and file names are not refused in the same way, as the mark that ends them may stand in
the comment. So two properties of a reader are kept apart.

## Main definitions

* `Script.Steady` — the reader takes and refuses the same in front of a comment.
* `Script.Lasting` — the reader takes the same in front of a comment, if it takes anything.

## Main results

* `Script.steady_condition`, `Script.steady_items` — chains of terms and lists are steady.
* `Script.Sentence.read_append_comment` — a comment changes no sentence.
* `Script.trailing_comment_changes_nothing` — a comment changes no command, and no text has one.
-/

set_option autoImplicit false

namespace AccumulatorMachine.Script

open Script.Sentence

/-! ## Steady readers -/

/-- The reader takes and refuses the same in front of a comment. -/
def Steady {α : Type} (reader : Reader α) : Prop :=
  ∀ cs comment, reader (cs ++ (commentMark ++ comment)) =
    (reader cs).map fun x => (x.1, x.2 ++ (commentMark ++ comment))

/-- The reader takes the same in front of a comment, if it takes anything. -/
def Lasting {α : Type} (reader : Reader α) : Prop :=
  ∀ cs comment a rest, reader cs = some (a, rest) →
    reader (cs ++ (commentMark ++ comment)) = some (a, rest ++ (commentMark ++ comment))

section Rules

variable {α β : Type} {reader first second : Reader α}

/-- What is taken the same way or refused is taken the same way. -/
lemma Steady.lasting (h : Steady reader) : Lasting reader := by
  intro cs comment a rest hread
  rw [h cs comment, hread]
  rfl

/-- It does not matter what is made of what is taken. -/
lemma Steady.map {f : α → β} (h : Steady reader) :
    Steady fun cs => (reader cs).map fun x => (f x.1, x.2) := by
  intro cs comment
  simp only [h cs comment, Option.map_map]
  rfl

/-- A choice is steady if both of its parts are. -/
lemma Steady.or (hfirst : Steady first) (hsecond : Steady second) :
    Steady fun cs => (first cs).or (second cs) := by
  intro cs comment
  simp only [hfirst cs comment, hsecond cs comment, Option.map_or]

/-- So is one reader behind another, whatever the first has found. -/
lemma Steady.bind {next : α → Reader β} (h : Steady reader) (hnext : ∀ a, Steady (next a)) :
    Steady fun cs => (reader cs).bind fun x => next x.1 x.2 := by
  intro cs comment
  simp only [h cs comment, Option.bind_map, Option.map_bind]
  exact congrArg _ (funext fun x => hnext x.1 x.2 comment)

/-- Lasting readers may stand behind one another too. -/
lemma Lasting.bind {next : α → Reader β} (h : Lasting reader) (hnext : ∀ a, Lasting (next a)) :
    Lasting fun cs => (reader cs).bind fun x => next x.1 x.2 := by
  intro cs comment b rest hread
  obtain ⟨⟨a, mid⟩, hfirst, hmore⟩ := Option.bind_eq_some_iff.1 hread
  simp only [h cs comment a mid hfirst, Option.bind_some]
  exact hnext a mid comment b rest hmore

/-- The second of two readers is tried in front of a comment only where it was tried before, or where it
finds nothing anyway. -/
lemma Lasting.or (hfirst : Lasting first) (hsecond : Lasting second)
    (hapart : ∀ cs comment, first cs = none → second cs ≠ none →
      first (cs ++ (commentMark ++ comment)) = none) :
    Lasting fun cs => (first cs).or (second cs) := by
  intro cs comment a rest hread
  rcases Option.or_eq_some_iff.1 hread with hread | ⟨hnone, hread⟩
  · simp only [hfirst cs comment a rest hread, Option.some_or]
  · have hsome : second cs ≠ none := by simp [hread]
    simp only [hapart cs comment hnone hsome, Option.none_or]
    exact hsecond cs comment a rest hread

/-- What a lasting reader takes may be told in other words. -/
lemma Lasting.map {f : α → β} (h : Lasting reader) :
    Lasting fun cs => (reader cs).map fun x => (f x.1, x.2) := by
  intro cs comment b rest hread
  obtain ⟨⟨a, mid⟩, htaken, hresult⟩ := Option.map_eq_some_iff.1 hread
  obtain ⟨rfl, rfl⟩ := Prod.mk.inj hresult
  simp only [h cs comment a mid htaken, Option.map_some]

end Rules

/-! ## Words and gaps -/

/-- A word without a slash ends where a comment begins. -/
lemma after_append_comment {word : List Char} (h : '/' ∉ word) (cs comment : List Char) :
    after word (cs ++ (commentMark ++ comment)) =
      (after word cs).map (· ++ (commentMark ++ comment)) := by
  induction word generalizing cs with
  | nil => rfl
  | cons w ws ih =>
    obtain ⟨hw, hws⟩ := not_or.1 (List.mem_cons.not.1 h)
    cases cs with
    | nil => exact if_neg fun heq : w = '/' => hw heq.symm
    | cons c cs =>
      by_cases heq : w = c
      · simp only [List.cons_append, after, heq, if_true]
        exact ih hws cs
      · simp [after, heq]

/-- Characters other than the slash end where a comment begins. -/
lemma span_append_comment {p : Char → Bool} (hp : p '/' = false) (cs comment : List Char) :
    (cs ++ (commentMark ++ comment)).takeWhile p = cs.takeWhile p ∧
      (cs ++ (commentMark ++ comment)).dropWhile p = cs.dropWhile p ++ (commentMark ++ comment) := by
  induction cs with
  | nil => simp [commentMark, hp]
  | cons c cs ih => by_cases hc : p c <;> simp [hc, ih]

/-- In front of a comment, what is left behind a gap is the same, unless it is nothing, or a slash that
makes a mark with the comment. -/
lemma skip_append_comment (cs comment : List Char) :
    skip (cs ++ (commentMark ++ comment)) =
      if skip cs = [] ∨ skip cs = ['/'] then [] else skip cs ++ (commentMark ++ comment) := by
  rw [skip, skip, (span_append_comment rfl cs comment).2]
  rcases cs.dropWhile isGap with _ | ⟨c, _ | ⟨d, more⟩⟩
  · rfl
  · by_cases hc : c = '/'
    · subst hc
      rfl
    · have hc' : '/' ≠ c := Ne.symm hc
      simp [commentMark, hc, hc']
  · have hsame : commentMark.isPrefixOf (c :: d :: more ++ (commentMark ++ comment)) =
        commentMark.isPrefixOf (c :: d :: more) := rfl
    rw [hsame]
    split <;> simp

/-- A comment may stand behind the last token. -/
lemma isTail_append_comment {rest : List Char} (h : IsTail rest) (comment : List Char) :
    IsTail (rest ++ (commentMark ++ comment)) := by
  rw [← skip_eq_nil_iff, skip_append_comment]
  exact if_pos (Or.inl (skip_eq_nil_iff.2 h))

section Words

variable {α : Type}

/-- A word without a slash may stand in front of what is steady. -/
lemma Steady.behindLiteral {word : String} {reader : Reader α} (hword : '/' ∉ word.toList)
    (h : Steady reader) : Steady fun cs => (literal word cs).bind reader := by
  intro cs comment
  simp only [literal, after_append_comment hword, Option.bind_map, Option.map_bind]
  exact congrArg _ (funext fun rest => h rest comment)

/-- A lasting reader may stand behind a word without slashes. -/
lemma Lasting.behindLiteral {word : String} {reader : Reader α} (hword : '/' ∉ word.toList)
    (h : Lasting reader) : Lasting fun cs => (literal word cs).bind reader := by
  intro cs comment a rest hread
  obtain ⟨mid, htaken, hmore⟩ := Option.bind_eq_some_iff.1 hread
  simp only [literal, after_append_comment hword, Option.bind_map] at htaken ⊢
  rw [htaken]
  exact h mid comment a rest hmore

/-- A word without a slash is steady. -/
lemma steady_literal (word : String) (hword : '/' ∉ word.toList) (a : α) :
    Steady fun cs => (literal word cs).map (a, ·) := by
  intro cs comment
  simp only [literal, after_append_comment hword, Option.map_map]
  rfl

/-- What is steady is steady behind a gap, if it takes neither nothing nor a slash. -/
lemma Steady.behindGap {reader : Reader α} (h : Steady reader) (hnil : reader [] = none)
    (hslash : reader ['/'] = none) : Steady fun cs => reader (skip cs) := by
  intro cs comment
  simp only [skip_append_comment]
  split
  · rename_i hskip
    rcases hskip with hskip | hskip
    · rw [hskip, hnil]
      rfl
    · rw [hskip, hslash, hnil]
      rfl
  · exact h (skip cs) comment

/-- It may stand behind a gap, if it takes neither nothing nor a slash alone. -/
lemma Lasting.behindGap {reader : Reader α} (h : Lasting reader) (hnil : reader [] = none)
    (hslash : reader ['/'] = none) : Lasting fun cs => reader (skip cs) := by
  intro cs comment a rest hread
  have hskip : ¬ (skip cs = [] ∨ skip cs = ['/']) := by
    rintro (hskip | hskip)
    · simp only [hskip, hnil, reduceCtorEq] at hread
    · simp only [hskip, hslash, reduceCtorEq] at hread
  simp only [skip_append_comment, if_neg hskip]
  exact h (skip cs) comment a rest hread

/-- What is the last thing of a line still is in front of a comment. -/
lemma Lasting.exists_rest {reader : Reader α} (hreader : Lasting reader) {cs rest : List Char} {a : α}
    (h : reader cs = some (a, rest)) (htail : IsTail rest) (comment : List Char) :
    ∃ rest', reader (cs ++ (commentMark ++ comment)) = some (a, rest') ∧ IsTail rest' :=
  ⟨_, hreader cs comment a rest h, isTail_append_comment htail comment⟩

/-- What takes nothing is steady. -/
lemma steady_some (a : α) : Steady fun cs => some (a, cs) := fun _ _ => rfl

/-- The first of some words is steady if no word has a slash. -/
lemma steady_findSome {words : List (String × α)} (hwords : ∀ x ∈ words, '/' ∉ x.1.toList) :
    Steady fun cs => words.findSome? fun x => (literal x.1 cs).map (x.2, ·) := by
  induction words with
  | nil => exact fun _ _ => rfl
  | cons x words ih =>
    obtain ⟨hx, hwords⟩ := List.forall_mem_cons.1 hwords
    simp only [Grammar.findSome?_cons_eq_or]
    exact (steady_literal x.1 hx x.2).or (ih hwords)

end Words

/-! ## Numbers -/

/-- Digits end where a comment begins. -/
lemma steady_hexDigits : Steady hexDigits := by
  intro cs comment
  obtain ⟨htake, hdrop⟩ := span_append_comment (p := Numeral.isDigit) rfl cs comment
  simp only [hexDigits, htake, hdrop]
  split <;> rfl

/-- So do signed digits. -/
lemma steady_signedDigits : Steady signedDigits := by
  have hplain : ∀ cs, cs.head? ≠ some '-' → signedDigits cs = hexDigits cs := by
    intro cs hcs
    unfold signedDigits
    split
    · exact absurd rfl hcs
    · rfl
  intro cs comment
  cases cs with
  | nil => rfl
  | cons c cs =>
    by_cases hc : c = '-'
    · subst hc
      exact steady_hexDigits.map cs comment
    · have hhead : ∀ rest : List Char, (c :: rest).head? ≠ some '-' :=
        fun _ h => hc (Option.some.inj h)
      rw [hplain _ (hhead cs), List.cons_append, hplain _ (hhead _)]
      exact steady_hexDigits (c :: cs) comment

/-- So do the digits of an address. -/
lemma steady_cellDigits : Steady cellDigits := steady_hexDigits.behindLiteral (by decide)

/-- So do those of a value. -/
lemma steady_wordDigits : Steady wordDigits := steady_signedDigits.behindLiteral (by decide)

/-- An opcode may end for having two digits, or where a comment begins. -/
lemma steady_opcodeDigits : Steady opcodeDigits := by
  intro cs comment
  rcases cs with _ | ⟨a, _ | ⟨b, cs⟩⟩
  · rfl
  · have hslash : Numeral.isDigit '/' = false := rfl
    by_cases ha : Numeral.isDigit a <;> simp [opcodeDigits, commentMark, ha, hslash]
  · by_cases ha : Numeral.isDigit a <;> by_cases hb : Numeral.isDigit b <;>
      simp [opcodeDigits, ha, hb]

/-! ## Conditions -/

/-- No register has a slash in its name. -/
lemma steady_registerName : Steady registerName :=
  (steady_literal "A" (by decide) RegisterName.accumulator).or
    (steady_literal "PC" (by decide) RegisterName.counter)

/-- Quantities are registers, addresses and values. -/
lemma steady_quantity : Steady quantity :=
  steady_registerName.map.or (steady_cellDigits.map.or steady_wordDigits.map)

/-- No comparison has a slash in its sign. -/
lemma steady_comparison : Steady comparison := steady_findSome (by decide)

/-- Terms are names and comparisons with gaps inside. -/
lemma steady_term : Steady term := by
  refine (steady_literal "true" (by decide) _).or ((steady_literal "false" (by decide) _).or
    ((steady_literal "halted" (by decide) _).or ?_))
  exact steady_quantity.bind fun _ => (steady_comparison.behindGap rfl rfl).bind fun _ =>
    (steady_quantity.behindGap rfl rfl).bind fun _ => steady_some _

/-- No connective has a slash in its word. -/
lemma steady_connective : Steady connective :=
  (steady_literal "AND" (by decide) Connective.and).or
    (steady_literal "OR" (by decide) Connective.or)

/-- A further term is a connective and a term, with a gap between them. -/
lemma steady_link : Steady link :=
  (steady_connective.behindGap rfl rfl).bind fun _ =>
    (steady_term.behindGap rfl rfl).bind fun _ => steady_some _

/-! ## Repetition -/

section Repeated

variable {α : Type} {item : Reader α}

/-- As many items are taken in front of a comment, if they are not counted. -/
lemma Steady.repeatedUpTo (h : Steady item) (count : Nat) (cs comment : List Char) :
    repeatedUpTo item count (cs ++ (commentMark ++ comment)) =
      ((repeatedUpTo item count cs).1, (repeatedUpTo item count cs).2 ++ (commentMark ++ comment)) := by
  induction count generalizing cs with
  | zero => rfl
  | succ count ih =>
    rw [Script.repeatedUpTo, Script.repeatedUpTo, h cs comment]
    cases item cs with
    | none => rfl
    | some found => simp only [Option.map_some, ih found.2]

/-- Items that are not empty are taken for as long as there is one, and a comment is none. -/
lemma Steady.repeated (h : Steady item)
    (hless : ∀ {cs a rest}, item cs = some (a, rest) → rest.length < cs.length) :
    Steady fun cs => some (repeated item cs) := by
  intro cs comment
  have hcount : cs.length ≤ (cs ++ (commentMark ++ comment)).length := by simp
  have htaken : Script.repeated item (cs ++ (commentMark ++ comment)) =
      ((Script.repeated item cs).1, (Script.repeated item cs).2 ++ (commentMark ++ comment)) := by
    rw [Script.repeated, h.repeatedUpTo, Grammar.repeatedUpTo_eq_repeated hless hcount]
  exact congrArg some htaken

/-- What takes the same as an expression of the grammar takes something if the expression does. -/
lemma length_lt_of_agree {shows : α → List Grammar.Node → Prop} {e : Grammar.Expr} {cs rest : List Char}
    {a : α} (htakes : e.takes = true)
    (h : Grammar.Agree shows Eq (item cs) (e.parse [] skip true (skip cs)))
    (hfound : item cs = some (a, rest)) : rest.length < cs.length := by
  rw [hfound] at h
  generalize hparsed : e.parse [] skip true (skip cs) = parsed at h
  cases h with
  | some h =>
    obtain ⟨-, rfl⟩ := h
    have hlength := Grammar.Expr.length_parse Grammar.length_skip_le hparsed
    have hskip := Grammar.length_skip_le cs
    rw [htakes, Bool.toNat_true] at hlength
    omega

/-- A chain of terms ends where a comment begins. -/
lemma steady_condition : Steady condition :=
  steady_term.bind fun _ => (steady_link.repeated fun {cs _ _} hfound =>
    length_lt_of_agree rfl (Grammar.agree_link cs) hfound).bind fun _ => steady_some _

/-- A list of steady items is steady. -/
lemma steady_items {e : Grammar.Expr} {node : α → Grammar.Node} (h : Steady item)
    (hnil : item [] = none) (hslash : item ['/'] = none)
    (hitem : ∀ cs, e.parse [] skip true cs = (item cs).map fun x => ([node x.1], x.2)) :
    Steady (items item) := by
  have hitem' : Steady fun cs => item (skip cs) := h.behindGap hnil hslash
  have hnext : Steady (nextItem item) := (hitem'.behindLiteral (by decide)).behindGap rfl rfl
  have hless : ∀ {cs a rest}, nextItem item cs = some (a, rest) → rest.length < cs.length :=
    fun hfound => length_lt_of_agree rfl (Grammar.Agree.literal_seq fun rest =>
      Grammar.agree_of_eq node (hitem (skip rest))) hfound
  refine Steady.behindLiteral (by decide) ?_
  show Steady fun cs => (item (skip cs)).bind fun x =>
    (some (repeated (nextItem item) x.2)).bind fun y =>
      (token ")" y.2).bind fun rest => some (x.1 :: y.1, rest)
  exact hitem'.bind fun first => (hnext.repeated hless).bind fun more =>
    ((steady_some (first :: more)).behindLiteral (by decide)).behindGap rfl rfl

end Repeated

/-- An instruction is an opcode and an argument, with a colon between them. -/
lemma steady_instruction : Steady Sentence.instruction :=
  steady_opcodeDigits.bind fun _ =>
    (steady_signedDigits.bind fun _ => steady_some _).behindLiteral (by decide)

/-! ## Delimited texts -/

/-- A description ends at its dollar signs, whatever stands behind them. -/
lemma lasting_description : Lasting description := by
  intro cs comment text rest h
  obtain ⟨rfl, htext⟩ := description_eq_some h
  simp only [List.append_assoc]
  exact description_append htext.not_infix htext.getLast?_ne _

/-- A file name ends at its quote, whatever stands behind it. -/
lemma lasting_fileName : Lasting fileName := by
  intro cs comment name rest h
  obtain ⟨rfl, hname⟩ := fileName_eq_some h
  simp only [writeFileName, List.append_assoc]
  exact fileName_append hname.ne_nil hname.not_mem _

/-! ## Commands -/

namespace Sentence

/-- A marker ends with its description. -/
lemma lasting_markerCommand : Lasting markerCommand := (lasting_description.behindGap rfl rfl).map

/-- An address and a list of items behind `write`. -/
lemma steady_write {α : Type} {item : Reader α} (h : Steady (items item))
    (f : List Char → List α → Sentence) :
    Steady fun cs => (token "write" cs).bind fun cs => (cellDigits (skip cs)).bind fun x =>
      (items item (skip x.2)).bind fun y => some (f x.1 y.1, y.2) := by
  refine Steady.behindGap (Steady.behindLiteral (by decide) ?_) rfl rfl
  exact (steady_cellDigits.behindGap rfl rfl).bind fun _ =>
    (h.behindGap rfl rfl).bind fun _ => steady_some _

/-- The name of a file behind a word. -/
lemma lasting_file {word : String} (hword : '/' ∉ word.toList) (hnil : literal word [] = none)
    (hslash : literal word ['/'] = none) (f : List Char → Sentence) :
    Lasting fun cs => (token word cs).bind fun cs => (fileName (skip cs)).bind fun x =>
      some (f x.1, x.2) := by
  refine Lasting.behindGap (Lasting.behindLiteral hword ?_) ?_ ?_
  · exact (lasting_fileName.behindGap rfl rfl).bind fun _ => (steady_some _).lasting
  · simp only [hnil, Option.bind_none]
  · simp only [hslash, Option.bind_none]

/-- The commands of the memory end with a word, a file name or a list. -/
lemma lasting_memoryCommand : Lasting memoryCommand := by
  have hflush := (steady_literal "flush" (by decide) flushMemory).behindGap rfl rfl
  have hload : Lasting fun cs => (token "load" cs).bind fun cs => (fileName (skip cs)).bind fun x =>
      some (load x.1, x.2) := lasting_file (by decide) rfl rfl load
  have hwrite := steady_write
    (steady_items steady_signedDigits rfl rfl (Grammar.parse_word true)) writeData
  refine hflush.lasting.or (hload.or hwrite.lasting ?_) ?_
  · -- The mark that ends a file name may stand in the comment, but there is no name behind `write`.
    intro cs comment _ hsome
    obtain ⟨mid, htoken⟩ : ∃ mid, token "write" cs = some mid := by
      cases htoken : token "write" cs with
      | none => exact absurd (by simp [htoken]) hsome
      | some mid => exact ⟨mid, rfl⟩
    obtain ⟨gap, hgap, rfl⟩ :=
      (skip_eq_append_iff (by decide) (by decide)).1 (after_eq_some_iff.1 htoken)
    simp only [List.append_assoc]
    rw [token_append_eq_none hgap (by decide) (by decide) (by decide)]
    rfl
  · intro cs comment hnone _
    exact (hflush cs comment).trans (congrArg (Option.map _) hnone)

/-- A command of the code ends with its list. -/
lemma lasting_codeCommand : Lasting codeCommand :=
  (steady_write (steady_items steady_instruction rfl rfl (Grammar.parse_instructionWord true))
    writeCode).lasting

/-- A check of a source ends with its file name. -/
lemma lasting_sourceCommand : Lasting sourceCommand :=
  lasting_file (by decide) rfl rfl checkSource

/-- The commands of the registers end with a word or a value. -/
lemma lasting_registersCommand : Lasting registersCommand := by
  refine (((steady_literal "flush" (by decide) flushRegisters).behindGap rfl rfl).or ?_).lasting
  refine (Steady.behindLiteral (by decide) ?_).behindGap rfl rfl
  exact (steady_registerName.behindGap rfl rfl).bind fun _ =>
    (((steady_wordDigits.behindGap rfl rfl).bind fun _ => steady_some _).behindLiteral
      (by decide)).behindGap rfl rfl

/-- An assertion ends with its description. -/
lemma lasting_assertCommand : Lasting assertCommand :=
  (steady_condition.behindGap rfl rfl).lasting.bind fun _ =>
    (lasting_description.behindGap rfl rfl).bind fun _ => (steady_some _).lasting

/-- The condition of a run ends where a comment begins. -/
lemma steady_untilClause : Steady untilClause :=
  ((steady_condition.behindGap rfl rfl).behindLiteral (by decide)).behindGap rfl rfl

/-- What may be missing is missing in front of a comment as well. -/
lemma optional_append_comment {α : Type} {reader : Reader α} (h : Steady reader)
    (cs comment : List Char) :
    optional reader (cs ++ (commentMark ++ comment)) =
      ((optional reader cs).1, (optional reader cs).2 ++ (commentMark ++ comment)) := by
  rw [optional, optional, h cs comment]
  cases reader cs <;> rfl

/-- A run is read as an address that may be missing and a stop condition that may be missing. The gap in
front of a missing address is skipped, but the stop condition may stand behind a gap anyway. -/
lemma exists_runCommand_eq (cs : List Char) :
    let address := optional (fun cs => cellDigits (skip cs)) cs
    let clause := optional untilClause address.2
    ∃ rest, runCommand cs = some (run address.1 clause.1, rest) ∧ skip rest = skip clause.2 := by
  have hskip : untilClause (skip cs) = untilClause cs := by
    rw [untilClause, untilClause, token, token, skip_skip]
  cases hcell : cellDigits (skip cs) with
  | some x => simp [runCommand, optional, hcell]
  | none =>
    cases hclause : untilClause cs with
    | some x => simp [runCommand, optional, hcell, hskip, hclause]
    | none => simp [runCommand, optional, hcell, hskip, hclause, skip_skip]

section Lines

variable {reader : Reader Sentence} {cs rest : List Char} {s : Sentence}

/-- A run has parts that may be missing behind it, so a gap may be taken before the comment is seen. What
is left is skipped in either case. -/
lemma exists_rest_runCommand (h : runCommand cs = some (s, rest)) (htail : IsTail rest)
    (comment : List Char) :
    ∃ rest', runCommand (cs ++ (commentMark ++ comment)) = some (s, rest') ∧ IsTail rest' := by
  obtain ⟨_, hrun, hskip⟩ := exists_runCommand_eq cs
  obtain ⟨rest', hrun', hskip'⟩ := exists_runCommand_eq (cs ++ (commentMark ++ comment))
  obtain ⟨rfl, rfl⟩ := Prod.mk.inj (Option.some.inj (h.symm.trans hrun))
  rw [optional_append_comment (steady_cellDigits.behindGap rfl rfl),
    optional_append_comment steady_untilClause] at hrun' hskip'
  refine ⟨rest', hrun', ?_⟩
  rw [← skip_eq_nil_iff] at htail ⊢
  rw [hskip']
  exact skip_eq_nil_iff.2 (isTail_append_comment (skip_eq_nil_iff.1 (hskip.symm.trans htail)) comment)

/-- A command that is the last thing of a line still is in front of a comment. -/
lemma exists_rest_of_mem {word : String} (hmem : (word, reader) ∈ commands)
    (h : reader cs = some (s, rest)) (htail : IsTail rest) (comment : List Char) :
    ∃ rest', reader (cs ++ (commentMark ++ comment)) = some (s, rest') ∧ IsTail rest' := by
  simp only [commands, List.mem_cons, Prod.mk.injEq, List.not_mem_nil, or_false] at hmem
  rcases hmem with ⟨-, rfl⟩ | ⟨-, rfl⟩ | ⟨-, rfl⟩ | ⟨-, rfl⟩ | ⟨-, rfl⟩ | ⟨-, rfl⟩ | ⟨-, rfl⟩
  · exact lasting_markerCommand.exists_rest h htail comment
  · exact lasting_memoryCommand.exists_rest h htail comment
  · exact lasting_codeCommand.exists_rest h htail comment
  · exact lasting_sourceCommand.exists_rest h htail comment
  · exact lasting_registersCommand.exists_rest h htail comment
  · exact exists_rest_runCommand h htail comment
  · exact lasting_assertCommand.exists_rest h htail comment

end Lines

/-- **A comment changes no sentence.** -/
theorem read_append_comment {line : List Char} {found : Option Sentence} (h : read line = some found)
    (comment : List Char) : read (line ++ (commentMark ++ comment)) = some found := by
  cases found with
  | none =>
    rw [AccumulatorMachine.Sentence.read_eq_none_iff] at h ⊢
    exact isTail_append_comment h comment
  | some s =>
    obtain ⟨before, reader, body, rest, hbefore, hmem, rfl, hbody, htail⟩ := read_eq_some_iff.1 h
    obtain ⟨rest', hbody', htail'⟩ := exists_rest_of_mem hmem hbody htail comment
    refine read_eq_some_iff.2 ⟨before, reader, _, rest', hbefore, hmem, ?_, hbody', htail'⟩
    simp only [List.append_assoc]

end Sentence

/-! ## Commands of lines -/

/-- Blanks at the end of a comment are all that is trimmed off a trimmed line with a comment. -/
lemma trim_append_comment {line : List Char} (h : Text.trim line = line) (comment : List Char) :
    Text.trim (line ++ (commentMark ++ comment)) = line ++ (commentMark ++ Text.trimEnd comment) := by
  have hfront : line.dropWhile Text.isBlank = line := by
    obtain ⟨blanks, hdrop, -⟩ := Text.exists_trim_append line
    rw [h] at hdrop
    have hle := Text.length_dropWhile_le Text.isBlank line
    rw [hdrop, List.length_append] at hle
    have hnil : blanks = [] := List.eq_nil_of_length_eq_zero (by omega)
    rw [hdrop, hnil, List.append_nil]
  have hslash : line ++ (commentMark ++ comment) = (line ++ ['/']) ++ '/' :: comment := by
    simp [commentMark]
  rw [Text.trim, (span_append_comment (by decide) line comment).2, hfront, hslash,
    Text.trimEnd_append_cons (by decide)]
  simp [commentMark]

/-- **A comment at the end of a line changes nothing.** A line without blanks at its ends, if it is
accepted, gives the same command with any comment behind it, or none if it gave none. But a text between
dollar signs or quotes is the text of its command whatever it holds, also the mark of a comment. -/
theorem trailing_comment_changes_nothing :
    (∀ (line : List Char) (given : Option Command), Text.trim line = line →
      Command.ofLine line = .ok given →
        ∀ comment, Command.ofLine (line ++ (commentMark ++ comment)) = .ok given) ∧
    ∀ (line : List Char) (text : String),
      (Command.ofLine line = .ok (some (.marker text)) ↔ MarkerLine text.toList (Text.trim line)) ∧
      (∀ c, Command.ofLine line = .ok (some (.claim c text)) ↔
        ∃ first links, AssertLine first links text.toList (Text.trim line) ∧
          c = Condition.join first links) ∧
      (Command.ofLine line = .ok (some (.load text)) ↔
        FileLine "memory" "load" text.toList (Text.trim line)) ∧
      (Command.ofLine line = .ok (some (.checkSource text)) ↔
        FileLine "source" "check" text.toList (Text.trim line)) := by
  refine ⟨fun line given htrim hgiven comment => ?_, fun line text =>
    ⟨ofLine_marker_iff, fun _ => ofLine_claim_iff, ofLine_load_iff, ofLine_checkSource_iff⟩⟩
  rw [Command.ofLine, htrim] at hgiven
  rw [Command.ofLine, trim_append_comment htrim]
  cases hread : Sentence.read line with
  | none =>
    rw [hread] at hgiven
    cases hgiven
  | some found =>
    rw [hread] at hgiven
    rw [read_append_comment hread]
    cases found with
    | none => exact hgiven
    | some sentence => exact hgiven

/-- A comment behind a description with the mark of a comment, and one behind such a file name. -/
theorem trailing_comment_changes_nothing_slashes :
    Command.ofLine ("assert true $$a // b$$".toList ++ (commentMark ++ " $$".toList)) =
        .ok (some (.claim (.term (.constant true)) "a // b")) ∧
      Command.ofLine ("memory load \"a//b\"".toList ++ (commentMark ++ "\"".toList)) =
        .ok (some (.load "a//b")) ∧
      FileLine "memory" "load" "a//b".toList "memory load \"a//b\"".toList := by
  obtain ⟨hcomment, htexts⟩ := trailing_comment_changes_nothing
  have hload : Command.ofLine "memory load \"a//b\"".toList = .ok (some (.load "a//b")) := by
    decide +kernel
  have htrim : Text.trim "memory load \"a//b\"".toList = "memory load \"a//b\"".toList := by decide
  refine ⟨hcomment _ _ (by decide) (by decide +kernel) _, hcomment _ _ htrim hload _, ?_⟩
  have hline := (htexts "memory load \"a//b\"".toList "a//b").2.2.1.1 hload
  rwa [htrim] at hline

end AccumulatorMachine.Script

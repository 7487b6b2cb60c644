import AccumulatorMachine.Proofs.ConditionLines
import AccumulatorMachine.Proofs.TraceCompleteness

/-!
# Lines that only observe

Some lines of a script leave the machine alone: those that say nothing or cannot be read, those that are
no command, and those that only look, at the machine or at a source. The machine is all that a line finds
of the lines before it. So a line that leaves it alone may be taken out of a script, and each other line
gives the token that it gave before.

## Main definitions

* `Script.SaysNothing`, `Script.IsSilent` — a blank line or a comment.
* `Script.IsObserving` — a line that leaves the machine alone, told by its form.
* `Script.answers` — what each line of a script gives, if it gives anything.
* `Script.kept` — what is left of a list when some members are taken out.

## Main results

* `Script.ofLine_eq_none_iff` — the lines without a command are the blank ones and the comments.
* `Script.machine_obey_of_isObserving` — an observing line leaves the machine alone.
* `Script.answers_kept` — the other lines give what they gave before.
* `Script.observing_lines_undisturbing` — so do those of a session that goes on after failures.
-/

set_option autoImplicit false

namespace AccumulatorMachine

open Script

/-! ## Lines that say nothing -/

/-- A blank line, or one whose first two characters behind blanks open a comment. -/
def Script.SaysNothing (text : List Char) : Prop :=
  Text.IsBlankLine text ∨
    ∃ blanks comment, Text.IsBlankLine blanks ∧ text = blanks ++ (commentMark ++ comment)

/-- Blanks and tabs are blanks. -/
lemma Script.Spaces.isBlankLine {gap : List Char} (h : Spaces gap) : Text.IsBlankLine gap := by
  intro c hc
  rcases isGap_iff.1 (h c hc) with rfl | rfl <;> decide

/-- The lines that say nothing are those that are skipped once they are trimmed. -/
lemma Script.isTail_trim_iff {text : List Char} : IsTail (Text.trim text) ↔ SaysNothing text := by
  obtain ⟨behind, hdrop, hbehind⟩ := Text.exists_trim_append text
  have hsplit : text = text.takeWhile Text.isBlank ++ (Text.trim text ++ behind) := by
    rw [← hdrop, List.takeWhile_append_dropWhile]
  have hbefore : Text.IsBlankLine (text.takeWhile Text.isBlank) :=
    fun c hc => List.mem_takeWhile_imp hc
  constructor
  · rintro ⟨gap, comment, hgap, htrim, rfl | ⟨rest, rfl⟩⟩
    · left
      rw [hsplit, htrim, List.append_nil]
      intro c hc
      simp only [List.mem_append] at hc
      rcases hc with hc | hc | hc
      · exact hbefore c hc
      · exact hgap.isBlankLine c hc
      · exact hbehind c hc
    · right
      refine ⟨text.takeWhile Text.isBlank ++ gap, rest ++ behind, ?_, ?_⟩
      · intro c hc
        rcases List.mem_append.1 hc with hc | hc
        · exact hbefore c hc
        · exact hgap.isBlankLine c hc
      · rw [htrim] at hsplit
        simpa using hsplit
  · rintro (hblank | ⟨blanks, comment, hblanks, rfl⟩)
    · rw [(Text.trim_eq_nil_iff text).2 hblank]
      exact ⟨[], [], nofun, rfl, Or.inl rfl⟩
    · -- The two characters of the mark are not blank, so none of them is trimmed off.
      have hmark : (blanks ++ (commentMark ++ comment)).dropWhile Text.isBlank =
          commentMark ++ comment := by
        rw [List.dropWhile_append_of_pos hblanks]
        rfl
      refine ⟨[], commentMark ++ Text.trimEnd comment, nofun, ?_, Or.inr (List.prefix_append _ _)⟩
      rw [Text.trim, hmark]
      exact Text.trimEnd_append_cons (by decide) ['/'] comment

/-- A line without a sentence is skipped as a whole. -/
lemma Sentence.read_eq_none_iff {line : List Char} :
    Sentence.read line = some none ↔ IsTail line := by
  rw [← skip_eq_nil_iff, Sentence.read]
  cases htaken : Sentence.optional Sentence.command (skip line) with
  | mk sentence rest =>
    simp only [Option.ite_none_right_eq_some, Option.some.injEq]
    rcases Sentence.optional_eq_iff.1 htaken with ⟨-, rfl, rfl⟩ | ⟨s, hs, rfl⟩
    · rw [skip_skip]
      simp
    · simp only [reduceCtorEq, and_false, false_iff]
      intro hnil
      rw [hnil] at hs
      cases hs

/-- **The lines without a command are the blank ones and the comments.** -/
theorem Script.ofLine_eq_none_iff {text : List Char} :
    Command.ofLine text = .ok none ↔ SaysNothing text := by
  rw [← isTail_trim_iff, ← Sentence.read_eq_none_iff, Command.ofLine]
  cases Sentence.read (Text.trim text) with
  | none => simp
  | some sentence =>
    cases sentence with
    | none => simp
    | some s => cases h : s.toCommand <;> simp [h, Except.mapError, Except.map]

namespace Script

/-- A line that can be read and says nothing. -/
def IsSilent (line : ReadLine) : Prop := ∃ text, line = .ok text ∧ SaysNothing text

/-- A line that leaves the machine alone, told by its form. -/
inductive IsObserving : ReadLine → Prop
  /-- A line that cannot be read. -/
  | unreadable (e : ReadError) : IsObserving (.error e)
  /-- A blank line or a comment. -/
  | silent {text : List Char} (h : SaysNothing text) : IsObserving (.ok text)
  /-- A line that is no command. -/
  | rejected {text : List Char} {e : CommandError} (h : Command.ofLine text = .error e) :
      IsObserving (.ok text)
  /-- An assertion. -/
  | claim {text : List Char} {c : Condition} {description : String}
      (h : Command.ofLine text = .ok (some (.claim c description))) : IsObserving (.ok text)
  /-- A check of a source. -/
  | checkSource {text : List Char} {file : String}
      (h : Command.ofLine text = .ok (some (.checkSource file))) : IsObserving (.ok text)

/-! ## What the lines give -/

section Answers

variable (wording : Wording) (files : Files) (steps : Nat)

/-- What each line gives, if it gives anything. -/
def answers (m : Machine) : List ReadLine → List (Option Token)
  | [] => []
  | line :: rest =>
    let (result, m) := obey files steps m line
    result.map (Token.ofLine wording) :: answers m rest

/-- The lines give one answer each. -/
lemma length_answers (m : Machine) (lines : List ReadLine) :
    (answers wording files steps m lines).length = lines.length := by
  induction lines generalizing m with
  | nil => rfl
  | cons line rest ih => rw [answers, List.length_cons, List.length_cons, ih]

/-- The tokens of some lines are what these give. -/
lemma tokensFrom_eq_reduceOption (m : Machine) (lines : List ReadLine) :
    tokensFrom wording files steps m lines = (answers wording files steps m lines).reduceOption := by
  induction lines generalizing m with
  | nil => rfl
  | cons line rest ih =>
    rw [tokensFrom, answers]
    cases obey files steps m line with
    | mk result m =>
      cases result with
      | none => exact ih m
      | some result => exact congrArg (Token.ofLine wording result :: ·) (ih m)

/-- A line gives nothing exactly if it is silent. -/
lemma obey_fst_eq_none_iff {m : Machine} {line : ReadLine} :
    (obey files steps m line).1 = none ↔ IsSilent line := by
  cases line with
  | error e => simp [obey, IsSilent]
  | ok text =>
    have hsilent : IsSilent (.ok text) ↔ Command.ofLine text = .ok none := by
      simp [IsSilent, ofLine_eq_none_iff]
    rw [hsilent, obey]
    cases Command.ofLine text with
    | error e => simp
    | ok command => cases command <;> simp

/-- The lines that give nothing are the silent ones. -/
lemma answers_getElem?_eq_none_iff (m : Machine) {lines : List ReadLine} {i : Nat} {line : ReadLine}
    (h : lines[i]? = some line) :
    (answers wording files steps m lines)[i]? = some none ↔ IsSilent line := by
  induction lines generalizing m i with
  | nil => cases h
  | cons first rest ih =>
    cases i with
    | zero =>
      obtain rfl : first = line := by simpa using h
      rw [answers, List.getElem?_cons_zero, Option.some.injEq, Option.map_eq_none_iff]
      exact obey_fst_eq_none_iff files steps
    | succ i =>
      rw [List.getElem?_cons_succ] at h
      exact ih _ h

/-- **An observing line leaves the machine alone.** -/
theorem machine_obey_of_isObserving {line : ReadLine} (h : IsObserving line) (m : Machine) :
    (obey files steps m line).2 = m := by
  cases h with
  | unreadable e => rfl
  | silent h => rw [obey, ofLine_eq_none_iff.2 h]
  | rejected h => rw [obey, h]
  | claim h | checkSource h =>
    rw [obey, h]
    rfl

end Answers

/-! ## Taking lines out -/

/-- What is left of a list when the members that are not marked are taken out. -/
def kept {α : Type} (marks : List Bool) (members : List α) : List α :=
  ((members.zip marks).filter Prod.snd).map Prod.fst

/-- A marked member is kept. -/
@[simp] lemma kept_cons_true {α : Type} (marks : List Bool) (a : α) (members : List α) :
    kept (true :: marks) (a :: members) = a :: kept marks members := rfl

/-- A member that is not marked is taken out. -/
@[simp] lemma kept_cons_false {α : Type} (marks : List Bool) (a : α) (members : List α) :
    kept (false :: marks) (a :: members) = kept marks members := rfl

/-- The members that are taken out are observing lines. -/
def TakesObserving (marks : List Bool) (lines : List ReadLine) : Prop :=
  marks.length = lines.length ∧
    ∀ (i : Nat) (line : ReadLine), lines[i]? = some line → marks[i]? = some false → IsObserving line

/-- Of a first line and others, the first is observing if it is taken out, and so are the others. -/
lemma takesObserving_cons {mark : Bool} {marks : List Bool} {line : ReadLine}
    {rest : List ReadLine} :
    TakesObserving (mark :: marks) (line :: rest) ↔
      (mark = false → IsObserving line) ∧ TakesObserving marks rest := by
  constructor
  · rintro ⟨hlength, hobserving⟩
    exact ⟨fun hmark => hobserving 0 line rfl (congrArg some hmark), by simpa using hlength,
      fun i => hobserving (i + 1)⟩
  · rintro ⟨hline, hlength, hobserving⟩
    refine ⟨by simpa using hlength, fun i other hother hmark => ?_⟩
    cases i with
    | zero =>
      obtain rfl : line = other := by simpa using hother
      exact hline (by simpa using hmark)
    | succ i =>
      rw [List.getElem?_cons_succ] at hother hmark
      exact hobserving i other hother hmark

variable (wording : Wording) (files : Files) (steps : Nat)

/-- **The lines that are kept give what they gave before.**

**Proof sketch.** Induction on the lines. The first one is either kept and gives the same, as the machine
is the same, or it is taken out and leaves the machine to the others as it was. -/
theorem answers_kept (m : Machine) {marks : List Bool} {lines : List ReadLine}
    (h : TakesObserving marks lines) :
    answers wording files steps m (kept marks lines) =
      kept marks (answers wording files steps m lines) := by
  induction lines generalizing m marks with
  | nil => rfl
  | cons line rest ih =>
    cases marks with
    | nil => cases h.1
    | cons mark marks =>
      obtain ⟨hline, hrest⟩ := takesObserving_cons.1 h
      cases mark with
      | true =>
        rw [kept_cons_true, answers, answers, kept_cons_true]
        exact congrArg _ (ih _ hrest)
      | false =>
        rw [kept_cons_false, answers, kept_cons_false,
          machine_obey_of_isObserving files steps (hline rfl)]
        exact ih m hrest

end Script

open Script in
/-- **Observing lines disturb no script.** A session that goes on after failures sends, in the order of
the lines, one token for each line that is neither blank nor a comment. When observing lines are taken
out, whichever they are, the others give the tokens that they gave before. -/
theorem Script.observing_lines_undisturbing (wording : Wording) (files : Files) (steps : Nat)
    (lines : List ReadLine) :
    let session := (Settings.goOn wording steps).runLines files
    let given := answers wording files steps {} lines
    session lines = ⟨given.reduceOption, .ok ()⟩ ∧
      given.length = lines.length ∧
      (∀ (i : Nat) (line : ReadLine), lines[i]? = some line →
        (given[i]? = some none ↔ IsSilent line)) ∧
      ∀ marks, TakesObserving marks lines →
        answers wording files steps {} (kept marks lines) = kept marks given ∧
          session (kept marks lines) = ⟨(kept marks given).reduceOption, .ok ()⟩ := by
  intro session given
  have hsession : ∀ lines,
      session lines = ⟨(answers wording files steps {} lines).reduceOption, .ok ()⟩ := by
    intro lines
    rw [← tokensFrom_eq_reduceOption]
    exact Settings.runFrom_goOn wording files steps {} #[] lines
  refine ⟨hsession lines, length_answers wording files steps {} lines, fun i line h => ?_,
    fun marks hmarks => ?_⟩
  · exact answers_getElem?_eq_none_iff wording files steps {} h
  · have hkept : answers wording files steps {} (kept marks lines) = kept marks given :=
      answers_kept wording files steps {} hmarks
    refine ⟨hkept, ?_⟩
    rw [hsession, hkept]

open Script in
/-- A script of all kinds of lines, without those that only observe. -/
theorem Script.observing_lines_undisturbing_all_kinds :
    ∃ (lines : List ReadLine) (marks : List Bool),
      let files : Files := fun _ => .directory
      TakesObserving marks lines ∧
        kept marks lines =
          [.ok "registers set A=0x5".toList, .ok "assert A = 0x5 $$five$$".toList] ∧
        ∀ wording, ((Settings.goOn wording 10).runLines files (kept marks lines)).tokens =
          [.setup ["register A set to 0x00000005"], .assertion none "five"] := by
  let files : Files := fun _ => .directory
  let lines : List ReadLine :=
    [.ok [], .ok "registers set A=0x5".toList, .ok "  // a comment".toList, .ok "?".toList,
      .error .notUtf8, .ok "assert A = 0x6 $$six$$".toList, .ok "source check \"f\"".toList,
      .ok "assert A = 0x5 $$five$$".toList]
  let marks : List Bool := [false, true, false, false, false, false, false, true]
  have hrejected : Command.ofLine "?".toList = .error (.form ['?']) := by decide +kernel
  have hclaim : Command.ofLine "assert A = 0x6 $$six$$".toList =
      .ok (some (.claim (.term (.compare (.register .accumulator) .equal (.word 6))) "six")) := by
    decide +kernel
  have hcheck : Command.ofLine "source check \"f\"".toList = .ok (some (.checkSource "f")) := by
    decide +kernel
  have hmarks : TakesObserving marks lines := by
    refine takesObserving_cons.2 ⟨fun _ => .silent (ofLine_eq_none_iff.1 (by decide +kernel)), ?_⟩
    refine takesObserving_cons.2 ⟨nofun, ?_⟩
    refine takesObserving_cons.2 ⟨fun _ => .silent (ofLine_eq_none_iff.1 (by decide +kernel)), ?_⟩
    refine takesObserving_cons.2 ⟨fun _ => .rejected hrejected, ?_⟩
    refine takesObserving_cons.2 ⟨fun _ => .unreadable .notUtf8, ?_⟩
    refine takesObserving_cons.2 ⟨fun _ => .claim hclaim, ?_⟩
    refine takesObserving_cons.2 ⟨fun _ => .checkSource hcheck, ?_⟩
    exact takesObserving_cons.2 ⟨nofun, rfl, nofun⟩
  refine ⟨lines, marks, hmarks, rfl, fun wording => ?_⟩
  obtain ⟨-, -, -, htaken⟩ := observing_lines_undisturbing wording files 10 lines
  rw [(htaken marks hmarks).2]
  with_unfolding_all rfl

end AccumulatorMachine

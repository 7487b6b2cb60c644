import AccumulatorMachine.Proofs.ConditionLines
import AccumulatorMachine.Proofs.WrittenCommands

/-!
# Shown conditions

A condition is shown in another way than it is typed. Three relations have a sign of their own, words are
shown by their bits, and `OR` comes with parentheses, which no script may hold. But the parentheses only
repeat what is known, as conditions are read from left to right. So a shown condition can be typed again:
the signs are spelled in two characters, and the parentheses are left out. It is read as the condition
that it shows, and two conditions are never shown by one text.

## Main definitions

* `Condition.IsGiven` — a condition that some line of a script gives.
* `Script.typed` — a shown text as it is typed.

## Main results

* `Condition.isGiven_iff` — conditions with addresses of 64 bits are given, and no others.
* `Condition.writtenAs_typed` — a shown condition, as it is typed, stands for the chain of its terms.
* `Condition.display_identifies` — so it is read as the condition.
-/

set_option autoImplicit false

namespace AccumulatorMachine

open Script

/-! ## Conditions of a script -/

/-- A condition that some line of a script gives: as an assertion, or as the end of a run. -/
def Condition.IsGiven (c : Condition) : Prop :=
  ∃ line, (∃ description, Command.ofLine line = .ok (some (.claim c description))) ∨
    ∃ start, Command.ofLine line = .ok (some (.run start c))

/-- What stands for a quantity has an address of 64 bits, if any. -/
lemma Quantity.WrittenAs.isWritable {q : Quantity} {text : List Char} (h : q.WrittenAs text) :
    q.IsWritable := by
  cases h with
  | cell h hle => exact Nat.lt_succ_of_le hle
  | register | word | negative => trivial

/-- A term that is written somewhere has addresses that can be written. -/
lemma Term.WrittenAs.isWritable {t : Term} {text : List Char} (h : t.WrittenAs text) :
    t.IsWritable := by
  cases h with
  | constant | halted => trivial
  | compare c hleft hgap hgap' hright => exact ⟨hleft.isWritable, hright.isWritable⟩

/-- So have further terms. -/
lemma LinksWrittenAs.isWritable {last : Term} {links : List (Connective × Term)} {text : List Char}
    (h : LinksWrittenAs last links text) : ∀ l ∈ links, l.2.IsWritable := by
  induction h with
  | nil => simp
  | cons hgap hapart hgap' ht hmore ih => simpa [ht.isWritable] using ih

namespace Condition

/-- A chain of terms can be written if each of its terms can. -/
lemma isWritable_foldl_extend {c : Condition} {links : List (Connective × Term)}
    (hc : c.IsWritable) (hlinks : ∀ l ∈ links, l.2.IsWritable) :
    (links.foldl extend c).IsWritable := by
  induction links generalizing c with
  | nil => exact hc
  | cons l links ih =>
    obtain ⟨hl, hmore⟩ := List.forall_mem_cons.1 hlinks
    obtain ⟨join, t⟩ := l
    cases join with
    | and => exact ih ⟨hc, hl⟩ hmore
    | or => exact ih ⟨hc, hl⟩ hmore

/-- What stands for a chain of terms has addresses of 64 bits. -/
lemma isWritable_of_chain {first : Term} {links : List (Connective × Term)} {text : List Char}
    (h : ChainWrittenAs first links text) : (join first links).IsWritable := by
  obtain ⟨head, more, -, hfirst, hmore⟩ := h
  exact isWritable_foldl_extend hfirst.isWritable hmore.isWritable

/-- A condition that some line gives can be written. -/
lemma isWritable_of_isGiven {c : Condition} (h : c.IsGiven) : c.IsWritable := by
  obtain ⟨line, ⟨description, hline⟩ | ⟨start, hline⟩⟩ := h
  · obtain ⟨first, links, hassert, rfl⟩ := ofLine_claim_iff.1 hline
    generalize Text.trim line = trimmed at hassert
    cases hassert with
    | intro hbefore hgap hchain => exact isWritable_of_chain hchain
  · obtain ⟨stop, hrun, rfl⟩ := ofLine_run_iff.1 hline
    generalize Text.trim line = trimmed at hrun
    cases hrun with
    | intro hbefore haddress hclause =>
      cases hclause with
      | none => trivial
      | some hgap hgap' hchain => exact isWritable_of_chain hchain

end Condition

/-! ## Typing what is shown -/

namespace Script

/-- A shown character as it is typed. Some signs are typed in two characters, and parentheses not at
all. -/
def typedChar : Char → List Char
  | '≥' => ['>', '=']
  | '≤' => ['<', '=']
  | '≠' => ['!', '=']
  | '(' | ')' => []
  | c => [c]

/-- A shown text as it is typed. -/
def typed (shown : String) : List Char := shown.toList.flatMap typedChar

/-- Shown texts one behind the other are typed one behind the other. -/
@[simp] lemma typed_append (a b : String) : typed (a ++ b) = typed a ++ typed b := by
  simp [typed]

/-- Digits are typed as they are shown. -/
lemma typed_of_isDigit {shown : String} (h : ∀ c ∈ shown.toList, Numeral.isDigit c = true) :
    typed shown = shown.toList := by
  have hchar : ∀ c, Numeral.isDigit c = true → typedChar c = [c] := by
    intro c hc
    unfold typedChar
    split
    case h_6 => rfl
    all_goals exact absurd hc (by decide)
  rw [typed, List.flatMap_congr fun c hc => hchar c (h c hc), List.flatMap_singleton']

/-- Numbers are typed as they are shown. -/
lemma typed_upperHex (width n : Nat) :
    typed (Numeral.upperHex width n) = (Numeral.upperHex width n).toList :=
  typed_of_isDigit (Numeral.spellsNat_upperHex width n).isDigit

/-- The sign of a relation is typed as it is spelled in scripts. -/
lemma typed_sign (c : Comparison) : typed c.sign = c.scriptSign.toList := by
  cases c <;> decide

end Script

/-- A shown quantity, as it is typed, stands for it. -/
lemma Quantity.writtenAs_typed {q : Quantity} (h : q.IsWritable) : q.WrittenAs (typed q.text) := by
  cases q with
  | register name =>
    have htyped : typed name.text = name.text.toList := by cases name <;> decide
    rw [text, htyped]
    exact .register name
  | cell address =>
    rw [text, typed_append, typed_upperHex]
    exact .cell (Numeral.spellsNat_upperHex 4 address) (Nat.le_of_lt_succ h)
  | word value =>
    have hvalue : Int32.ofInt (Word.pattern value) = value := by
      rw [← Int32.toInt_inj, Int32.toInt_ofInt]
      exact (BitVec.toInt_eq_toNat_bmod value.toBitVec).symm
    have hword := WrittenAs.word (Numeral.spellsNat_upperHex 2 (Word.pattern value))
      value.toUInt32.toNat_lt
    rw [hvalue] at hword
    rw [text, typed_append, typed_upperHex]
    exact hword

/-- A term is typed as it may be written. -/
lemma Term.writtenAs_typed {t : Term} (h : t.IsWritable) : t.WrittenAs (typed t.text) := by
  cases t with
  | constant b =>
    have htyped : typed (constant b).text = (if b then "true" else "false").toList := by
      cases b <;> decide
    rw [htyped]
    exact .constant b
  | halted => exact .halted
  | compare left c right =>
    have hspace : typed " " = [' '] := by decide
    simp only [text, typed_append, typed_sign, hspace, List.append_assoc]
    exact .compare c (Quantity.writtenAs_typed h.1) (by simp [Spaces, isGap])
      (by simp [Spaces, isGap]) (Quantity.writtenAs_typed h.2)

/-- One more term may be written behind others, with a gap on both sides of what joins it. -/
lemma LinksWrittenAs.concat {last t : Term} {links : List (Connective × Term)}
    {text gap more : List Char} (h : LinksWrittenAs last links text) (join : Connective)
    (hgap : IsGap gap) (ht : t.WrittenAs more) :
    LinksWrittenAs last (links ++ [(join, t)])
      (text ++ (gap ++ (join.word.toList ++ (gap ++ more)))) := by
  induction h with
  | nil last =>
    have hone : LinksWrittenAs last [(join, t)]
        (gap ++ (join.word.toList ++ (gap ++ (more ++ [])))) :=
      .cons hgap.isGap (fun _ _ => hgap.ne_nil) hgap.isGap ht (.nil t)
    rwa [List.append_nil] at hone
  | cons hgap' hapart hgap'' ht' hmore ih =>
    simp only [List.cons_append, List.append_assoc]
    exact .cons hgap' hapart hgap'' ht' ih

namespace Condition

/-- **A shown condition, as it is typed, stands for the chain of its terms.**

**Proof sketch.** Induction on the condition. One more term is shown behind the others, with blanks on both
sides of the word that joins it, and parentheses are not typed. -/
lemma writtenAs_typed {c : Condition} (h : c.IsWritable) :
    ChainWrittenAs c.first c.links (typed c.text) := by
  have hgap : IsGap [' '] := ⟨by simp, by simp [isGap]⟩
  have hand : typed " AND " = [' '] ++ (Connective.and.word.toList ++ [' ']) := by decide
  have hor : typed " OR " = [' '] ++ (Connective.or.word.toList ++ [' ']) := by decide
  have hopen : typed "(" = [] := by decide
  have hclose : typed ")" = [] := by decide
  induction c with
  | term t => exact ⟨_, [], (List.append_nil _).symm, Term.writtenAs_typed h, .nil t⟩
  | and c t ih =>
    obtain ⟨head, more, htext, hhead, hmore⟩ := ih h.1
    refine ⟨head, _, ?_, hhead, hmore.concat .and hgap (Term.writtenAs_typed h.2)⟩
    simp only [text, typed_append, htext, hand, List.append_assoc]
  | or c t ih =>
    obtain ⟨head, more, htext, hhead, hmore⟩ := ih h.1
    refine ⟨head, _, ?_, hhead, hmore.concat .or hgap (Term.writtenAs_typed h.2)⟩
    simp only [text, typed_append, htext, hor, hopen, hclose, List.append_assoc, List.nil_append,
      List.append_nil]

end Condition

/-! ## Reading what is typed -/

/-- What stands for a term has no blank at its end. -/
lemma Term.WrittenAs.endsSolid {t : Term} {text : List Char} (h : t.WrittenAs text) :
    Sentence.EndsSolid text := by
  cases h with
  | constant b => cases b <;> exact ⟨'e', rfl, by decide⟩
  | halted => exact ⟨'d', rfl, by decide⟩
  | compare c hleft hgap hgap' hright =>
    obtain ⟨spelled, rfl, hspelled, -⟩ := exists_spelled hright
    iterate 4 apply Sentence.endsSolid_append
    exact Sentence.endsSolid_quantity hspelled

/-- Nor have further terms behind a text without one. -/
lemma LinksWrittenAs.endsSolid {last : Term} {links : List (Connective × Term)}
    {before text : List Char} (h : LinksWrittenAs last links text)
    (hbefore : Sentence.EndsSolid before) : Sentence.EndsSolid (before ++ text) := by
  induction h generalizing before with
  | nil => rwa [List.append_nil]
  | cons hgap hapart hgap' ht hmore ih =>
    simp only [← List.append_assoc]
    exact ih (Sentence.endsSolid_append _ ht.endsSolid)

/-- A line without a blank at its ends is trimmed. -/
lemma Script.trim_cons_of_endsSolid {first : Char} {line : List Char}
    (hfirst : Text.isBlank first = false) (h : Sentence.EndsSolid line) :
    Text.trim (first :: line) = first :: line := by
  obtain ⟨last, hlast, hsolid⟩ := Sentence.endsSolid_append [first] h
  apply Text.trim_eq_self
  · simpa using hfirst
  · intro c hc
    obtain rfl := Option.mem_unique hlast hc
    exact hsolid

namespace Condition

variable {c : Condition}

/-- A shown condition, as it is typed, is read to its end. -/
lemma reads_typed (h : c.IsWritable) :
    Reads Sentence.condition ConditionText.toCondition (typed c.text) c [] := by
  have hread := condition_read (writtenAs_typed h) endsNumber_nil rfl
  rwa [List.append_nil, join_links] at hread

/-- A shown condition may be asserted. -/
lemma ofLine_assert_typed (h : c.IsWritable) {description : String}
    (hdescription : IsDescription description.toList) :
    Command.ofLine ("assert ".toList ++ (typed c.text ++
        (" $$".toList ++ (description.toList ++ "$$".toList)))) =
      .ok (some (.claim c description)) := by
  have hspace : Spaces [' '] := by simp [Spaces, isGap]
  have hline : AssertLine c.first c.links description.toList
      ([] ++ ("assert".toList ++ ([' '] ++ (typed c.text ++ ([' '] ++
        ("$$".toList ++ (description.toList ++ ("$$".toList ++ [])))))))) :=
    .intro (by simp [Spaces]) hspace (writtenAs_typed h) hspace hdescription (skip_eq_nil_iff.1 rfl)
  have hsolid : Sentence.EndsSolid ("ssert ".toList ++ (typed c.text ++
      (" $$".toList ++ (description.toList ++ "$$".toList)))) := by
    iterate 4 apply Sentence.endsSolid_append
    exact ⟨'$', rfl, by decide⟩
  rw [ofLine_claim_iff]
  refine ⟨c.first, c.links, ?_, c.join_links.symm⟩
  rw [show "assert ".toList = 'a' :: "ssert ".toList from rfl, List.cons_append,
    trim_cons_of_endsSolid (by decide) hsolid]
  simpa using hline

/-- A run may go until a shown condition holds. -/
lemma ofLine_run_typed (h : c.IsWritable) :
    Command.ofLine ("run until ".toList ++ typed c.text) = .ok (some (.run none c)) := by
  have hspace : Spaces [' '] := by simp [Spaces, isGap]
  have hline : RunLine none (some (c.first, c.links))
      ([] ++ ("run".toList ++ ([] ++
        (([' '] ++ ("until".toList ++ ([' '] ++ typed c.text))) ++ [])))) :=
    .intro (by simp [Spaces]) .none (.some hspace hspace (writtenAs_typed h)) (skip_eq_nil_iff.1 rfl)
  have hsolid : Sentence.EndsSolid ("un until ".toList ++ typed c.text) := by
    obtain ⟨head, more, htext, hfirst, hmore⟩ := writtenAs_typed h
    rw [htext]
    exact Sentence.endsSolid_append _ (hmore.endsSolid hfirst.endsSolid)
  rw [ofLine_run_iff]
  refine ⟨some (c.first, c.links), ?_, c.join_links.symm⟩
  rw [show "run until ".toList = 'r' :: "un until ".toList from rfl, List.cons_append,
    trim_cons_of_endsSolid (by decide) hsolid]
  simpa using hline

/-- **The conditions of scripts are those with addresses of 64 bits.** -/
lemma isGiven_iff : c.IsGiven ↔ c.IsWritable :=
  ⟨isWritable_of_isGiven, fun h => ⟨_, Or.inr ⟨none, ofLine_run_typed h⟩⟩⟩

/-- **A condition is identified by its text.** The conditions that scripts give are the chains of terms
with addresses of 64 bits. The text of such a condition, with its signs spelled in two characters and
without its parentheses, is read as the condition: as a whole, in an assertion with any description, and
as the end of a run. No other condition that a script gives has the same text.

**Proof sketch.** The text, as it is typed, stands for the chain of the terms, and what stands for a chain
is read as the condition that joins it. A text is not read as two conditions. -/
theorem display_identifies (c : Condition) :
    (c.IsGiven ↔ c.IsWritable) ∧
      (c.IsGiven →
        Reads Sentence.condition ConditionText.toCondition (typed c.text) c [] ∧
          (∀ description : String, IsDescription description.toList →
            Command.ofLine ("assert ".toList ++ (typed c.text ++
                (" $$".toList ++ (description.toList ++ "$$".toList)))) =
              .ok (some (.claim c description))) ∧
          Command.ofLine ("run until ".toList ++ typed c.text) = .ok (some (.run none c)) ∧
          ∀ other : Condition, other.IsGiven → other.text = c.text → other = c) := by
  refine ⟨isGiven_iff, fun hgiven => ?_⟩
  have h : c.IsWritable := isGiven_iff.1 hgiven
  refine ⟨reads_typed h, fun _ hdescription => ofLine_assert_typed h hdescription,
    ofLine_run_typed h, fun other hother htext => ?_⟩
  have hrun := ofLine_run_typed (isGiven_iff.1 hother)
  rw [htext, ofLine_run_typed h] at hrun
  simpa using hrun.symm

/-- A chain of both connectives with a negative word and the greatest address, and its text as it is
typed. -/
theorem display_identifies_mixed_chain :
    ∃ c : Condition, c.IsGiven ∧
      c.text = "((A ≥ 0xFFFFFFFE AND halted OR #0xFFFFFFFFFFFFFFFF ≠ PC) AND true OR 0x00 ≤ A)" ∧
      Reads Sentence.condition ConditionText.toCondition
        "A >= 0xFFFFFFFE AND halted OR #0xFFFFFFFFFFFFFFFF != PC AND true OR 0x00 <= A".toList c [] := by
  let negative : Term := .compare (.register .accumulator) .atLeast (.word (-2))
  let greatest : Term := .compare (.cell 0xffffffffffffffff) .different (.register .counter)
  let least : Term := .compare (.word 0) .atMost (.register .accumulator)
  let c : Condition :=
    .or (.and (.or (.and (.term negative) .halted) greatest) (.constant true)) least
  have htext : c.text =
      "((A ≥ 0xFFFFFFFE AND halted OR #0xFFFFFFFFFFFFFFFF ≠ PC) AND true OR 0x00 ≤ A)" := by
    decide +kernel
  have hgreatest : greatest.IsWritable := ⟨(by decide : 0xffffffffffffffff < 2 ^ 64), trivial⟩
  have hgiven : c.IsGiven := (display_identifies c).1.2
    ⟨⟨⟨⟨⟨trivial, trivial⟩, trivial⟩, hgreatest⟩, trivial⟩, ⟨trivial, trivial⟩⟩
  have hread := ((display_identifies c).2 hgiven).1
  rw [htext] at hread
  have htyped : typed "((A ≥ 0xFFFFFFFE AND halted OR #0xFFFFFFFFFFFFFFFF ≠ PC) AND true OR 0x00 ≤ A)" =
      "A >= 0xFFFFFFFE AND halted OR #0xFFFFFFFFFFFFFFFF != PC AND true OR 0x00 <= A".toList := by
    decide +kernel
  rw [htyped] at hread
  exact ⟨c, hgiven, htext, hread⟩

end Condition

end AccumulatorMachine

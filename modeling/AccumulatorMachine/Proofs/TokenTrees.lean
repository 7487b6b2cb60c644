import AccumulatorMachine.Proofs.LineGrammar
import AccumulatorMachine.Proofs.ReadSentences

/-!
# The trees of tokens

What the grammar makes of the parts of a line inside which no gaps may stand: numbers, words and
delimited texts. Each of them is taken exactly as its reader takes it, and leaves a node that is
determined by what has been read, since there is no gap in its text.

## Main definitions

* `Grammar.quantityNode`, `Grammar.instructionNode`, `Grammar.descriptionNode`, `Grammar.fileNode` — the
  nodes of what is read.

## Main results

* `Grammar.parse_rule`, `Grammar.parse_leaf` — a rule, where its text is known.
* `Grammar.parse_source`, `parse_instructionWord`, `parse_description`, `parse_filename` — what is taken,
  and its node.
-/

set_option autoImplicit false

namespace AccumulatorMachine.Script.Grammar

open Sentence

/-! ## Expressions -/

/-- A rule leaves a single node. -/
lemma parse_rule_eq_map (line : List Char) (gap : List Char → List Char) (name : Rule) (kind : Kind)
    (body : Expr) (spaced : Bool) (cs : List Char) :
    (Expr.rule name kind body).parse line gap spaced cs =
      (body.parse line gap (spaced && decide (kind = .normal)) cs).map fun found =>
        ([.mk name (taken cs found.2) (if kind = .atomic then [] else found.1)], found.2) := by
  rw [Expr.parse]

/-- What is taken of a text is what stands in front of the rest. -/
lemma taken_append (text rest : List Char) : taken (text ++ rest) rest = text := by
  rw [taken, List.length_append, Nat.add_sub_cancel, List.take_left]

section Expressions

variable {line : List Char}

/-- A choice is read as its first part, and as its second where the first is not there. -/
lemma parse_choice (first second : Expr) (spaced : Bool) (cs : List Char) :
    (Expr.choice first second).parse line skip spaced cs =
      (first.parse line skip spaced cs).or (second.parse line skip spaced cs) := by
  rw [Expr.parse]

/-- A word behind nodes leaves no node of its own. -/
lemma parse_literal (word : String) (spaced : Bool) (cs : List Char) :
    (Expr.literal word).parse line skip spaced cs = (literal word cs).map ([], ·) := by
  rw [Expr.parse]

/-- There are no nodes inside an atomic rule, and no gaps. -/
lemma parse_atomic {name : Rule} {body : Expr} {cs text rest : List Char} {nodes : List Node}
    (hcs : cs = text ++ rest) (h : body.parse line skip false cs = some (nodes, rest))
    (spaced : Bool) :
    (Expr.rule name .atomic body).parse line skip spaced cs = some ([.leaf name text], rest) := by
  have hinner : (spaced && decide (Kind.atomic = .normal)) = false := Bool.and_false spaced
  subst hcs
  rw [parse_rule_eq_map, hinner, h, Option.map_some, taken_append]
  rfl

end Expressions

section Leaf

variable {α : Type} {line : List Char} {gap : List Char → List Char} {name : Rule} {kind : Kind}
  {body : Expr} {spaced inner : Bool} {reader : Reader α} {write : α → List Char}

/-- A rule leaves a single node with the text that is read, where this text is known. -/
lemma parse_rule (kind : Kind) (nodes : α → List Node)
    (hinner : (spaced && decide (kind = .normal)) = inner)
    (hbody : ∀ cs, body.parse line gap inner cs = (reader cs).map fun x => (nodes x.1, x.2))
    (hwrite : ∀ {cs a rest}, reader cs = some (a, rest) → cs = write a ++ rest) (cs : List Char) :
    (Expr.rule name kind body).parse line gap spaced cs =
      (reader cs).map fun x =>
        ([.mk name (write x.1) (if kind = .atomic then [] else nodes x.1)], x.2) := by
  rw [parse_rule_eq_map, hinner, hbody]
  cases hread : reader cs with
  | none => rfl
  | some x =>
    obtain rfl := hwrite hread
    simp only [Option.map_some, taken_append]

/-- There are no nodes inside a rule without rules inside. -/
lemma parse_leaf (hinner : (spaced && decide (kind = .normal)) = inner)
    (hbody : ∀ cs, body.parse line gap inner cs = (reader cs).map fun x => ([], x.2))
    (hwrite : ∀ {cs a rest}, reader cs = some (a, rest) → cs = write a ++ rest) (cs : List Char) :
    (Expr.rule name kind body).parse line gap spaced cs =
      (reader cs).map fun x => ([.leaf name (write x.1)], x.2) := by
  rw [parse_rule kind (fun _ => []) hinner hbody hwrite]
  simp only [ite_self]
  rfl

end Leaf

/-! ## Nodes without nodes inside -/

/-- The node of an address. -/
def cellNode (digits : List Char) : Node := .leaf .memoryAddress ("#0x".toList ++ digits)

/-- The node of a value to compare with. -/
def valueNode (digits : List Char) : Node := .leaf .value ("0x".toList ++ digits)

/-- The node of a word in a list. -/
def wordNode (digits : List Char) : Node := .leaf .word digits

/-- The node of an opcode. -/
def opcodeNode (digits : List Char) : Node := .leaf .opcode digits

/-- The node of a register. -/
def registerNode (name : RegisterName) : Node := .leaf .register name.text.toList

/-- The node of a comparison sign. -/
def signNode (c : Comparison) : Node := .leaf .comparisonOperator c.scriptSign.toList

/-- The node of a connective. -/
def joinNode (join : Connective) : Node := .leaf .logicalOperator join.word.toList

/-- The node of a truth value. -/
def truthNode (b : Bool) : Node := .leaf .boolean (if b then "true" else "false").toList

/-- The node of the question for a halt. -/
def haltedNode : Node := .leaf .halted "halted".toList

/-- The node of a description, with the text between its marks inside. -/
def descriptionNode (text : List Char) : Node :=
  .mk .description (writeDescription text) [.leaf .descriptionText text]

/-- The node of a file name, with the name between its quotes inside. -/
def fileNode (name : List Char) : Node :=
  .mk .filename (writeFileName name) [.leaf .filenameText name]

/-- The node of a quantity. -/
def quantityNode : QuantityText → Node
  | .register name => registerNode name
  | .cell digits => cellNode digits
  | .word digits => valueNode digits

/-- The node of an instruction, with its opcode and its argument inside. -/
def instructionNode (i : List Char × List Char) : Node :=
  .mk .instructionWord (writeInstruction i) [opcodeNode i.1, wordNode i.2]

/-! ## Words and numbers -/

section Numbers

variable {line : List Char}

/-- A digit in base 16 is one character of a class. -/
lemma parse_digit (gap : List Char → List Char) (spaced : Bool) (cs : List Char) :
    Expr.digit.parse line gap spaced cs =
      if cs.head?.any Numeral.isDigit then some ([], cs.tail) else none := by
  rw [Expr.parse]

/-- At least one digit is taken, and all that follow it. -/
lemma parse_digits (cs : List Char) :
    (Expr.plus .digit).parse line skip false cs = (hexDigits cs).map fun x => ([], x.2) := by
  rw [parse_plus_of_class length_skip_le rfl (parse_digit skip false), hexDigits]
  split <;> rfl

/-- Signed digits are taken alike. -/
lemma parse_signedDigits (cs : List Char) :
    signedDigits.parse line skip false cs = (Script.signedDigits cs).map fun x => ([], x.2) := by
  have hoptional : (Expr.optional (.literal "-")).parse line skip false cs =
      some ([], ((literal "-" cs).getD cs)) := by
    simp only [Expr.parse]
    cases literal "-" cs <;> rfl
  rw [signedDigits, parse_seq, hoptional, Script.signedDigits.eq_def]
  simp only [Option.bind_some, behindGap, Bool.false_eq_true, if_false, parse_digits, List.nil_append,
    Option.map_map, Function.comp_def]
  split
  · simp [literal, after, Function.comp_def]
  · rename_i hsign
    have hnone : literal "-" cs = none := by
      rw [Option.eq_none_iff_forall_ne_some]
      intro rest hrest
      exact hsign rest (after_eq_some_iff.1 hrest)
    rw [hnone, Option.getD_none]

/-- An address is taken with its mark. -/
lemma parse_memoryAddress (spaced : Bool) (cs : List Char) :
    memoryAddress.parse line skip spaced cs =
      (cellDigits cs).map fun x => ([cellNode x.1], x.2) := by
  refine parse_leaf (Bool.and_false spaced) (fun cs => ?_) (fun h => ?_) cs
  · rw [parse_seq_literal, cellDigits, Option.map_bind]
    exact congrArg _ (funext parse_digits)
  · rw [(cellDigits_eq_some_iff.1 h).1, List.append_assoc]

/-- A value is taken with its mark. -/
lemma parse_value (spaced : Bool) (cs : List Char) :
    value.parse line skip spaced cs =
      (wordDigits cs).map fun x => ([valueNode x.1], x.2) := by
  refine parse_leaf (Bool.and_false spaced) (fun cs => ?_) (fun h => ?_) cs
  · rw [parse_seq_literal, wordDigits, Option.map_bind]
    exact congrArg _ (funext parse_signedDigits)
  · rw [(wordDigits_eq_some_iff.1 h).1, List.append_assoc]

/-- A word of a list leaves a node with its digits. -/
lemma parse_word (spaced : Bool) (cs : List Char) :
    word.parse line skip spaced cs =
      (Script.signedDigits cs).map fun x => ([wordNode x.1], x.2) :=
  parse_leaf (Bool.and_false spaced) parse_signedDigits (fun h => (signedDigits_eq_some_iff.1 h).1) cs

/-- An opcode is taken as one digit or two. -/
lemma parse_opcode (spaced : Bool) (cs : List Char) :
    opcode.parse line skip spaced cs =
      (opcodeDigits cs).map fun x => ([opcodeNode x.1], x.2) := by
  refine parse_leaf (Bool.and_false spaced) (fun cs => ?_)
    (fun h => (opcodeDigits_eq_some h).1) cs
  unfold opcodeDigits
  split
  · rename_i a b cs
    cases ha : Numeral.isDigit a <;> cases hb : Numeral.isDigit b <;>
      simp [Expr.parse, behindGap, ha, hb]
  · rename_i a
    cases ha : Numeral.isDigit a <;> simp [Expr.parse, behindGap, ha]
  · rfl

end Numbers

section Words

variable {line : List Char}

/-- The first of some places at which something is found is the first place, or else among the others. -/
lemma findSome?_cons_eq_or {α β : Type} (f : α → Option β) (a : α) (l : List α) :
    (a :: l).findSome? f = (f a).or (l.findSome? f) := by
  rw [List.findSome?_cons]
  cases f a <;> rfl

/-- A register leaves a node with its name. -/
lemma parse_register (spaced : Bool) (cs : List Char) :
    register.parse line skip spaced cs =
      (registerName cs).map fun x => ([registerNode x.1], x.2) := by
  unfold register
  refine parse_leaf (Bool.and_true spaced) (fun cs => ?_) registerName_eq_some_iff.1 cs
  simp only [Expr.parse, registerName, Option.map_or, Option.map_map, Function.comp_def]

/-- A comparison leaves a node with its sign. -/
lemma parse_comparisonOperator (spaced : Bool) (cs : List Char) :
    comparisonOperator.parse line skip spaced cs =
      (comparison cs).map fun x => ([signNode x.1], x.2) := by
  unfold comparisonOperator
  refine parse_leaf (Bool.and_true spaced) (fun cs => ?_) comparison_eq_some cs
  simp only [Expr.parse, comparison, signs, findSome?_cons_eq_or, List.findSome?_nil, Option.or_none,
    Option.map_or, Option.map_map, Function.comp_def]

/-- A connective leaves a node with its word. -/
lemma parse_logicalOperator (spaced : Bool) (cs : List Char) :
    logicalOperator.parse line skip spaced cs =
      (connective cs).map fun x => ([joinNode x.1], x.2) := by
  unfold logicalOperator
  refine parse_leaf (Bool.and_true spaced) (fun cs => ?_) connective_eq_some_iff.1 cs
  simp only [Expr.parse, connective, Option.map_or, Option.map_map, Function.comp_def]

/-- Takes a truth value. -/
def truth : Reader Bool := fun cs =>
  ((literal "true" cs).map (true, ·)).or ((literal "false" cs).map (false, ·))

/-- What is read as a truth value is its name. -/
lemma truth_eq_some {cs rest : List Char} {b : Bool} (h : truth cs = some (b, rest)) :
    cs = (if b then "true" else "false").toList ++ rest := by
  simp only [truth, literal, Option.or_eq_some_iff, Option.map_eq_some_iff, after_eq_some_iff,
    Prod.mk.injEq] at h
  rcases h with ⟨_, rfl, rfl, rfl⟩ | ⟨-, _, rfl, rfl, rfl⟩ <;> rfl

/-- A truth value leaves a node with its name. -/
lemma parse_boolean (spaced : Bool) (cs : List Char) :
    boolean.parse line skip spaced cs =
      (truth cs).map fun x => ([truthNode x.1], x.2) := by
  unfold boolean
  refine parse_leaf (Bool.and_true spaced) (fun cs => ?_) truth_eq_some cs
  simp only [Expr.parse, truth, Option.map_or, Option.map_map, Function.comp_def]

/-- A rule for a single word leaves that word. -/
lemma parse_wordRule (name : Rule) (word : String) (spaced : Bool) (cs : List Char) :
    (Expr.rule name .normal (.literal word)).parse line skip spaced cs =
      (literal word cs).map fun rest => ([.leaf name word.toList], rest) := by
  rw [parse_rule_eq_map, parse_literal]
  cases h : literal word cs with
  | none => rfl
  | some rest =>
    obtain rfl := after_eq_some_iff.1 h
    simp only [Option.map_some, taken_append]
    rfl

/-- A quantity leaves the node of its kind. -/
lemma parse_source (spaced : Bool) (cs : List Char) :
    source.parse line skip spaced cs = (quantity cs).map fun x => ([quantityNode x.1], x.2) := by
  rw [source, parse_choice, parse_choice, parse_register, parse_memoryAddress, parse_value, quantity]
  simp only [Option.map_or, Option.map_map]
  rfl

/-- The end of a line is found where nothing is left. -/
lemma parse_endOfInput (line cs : List Char) :
    (Expr.rule .endOfInput .normal .stop).parse line skip true cs =
      if cs = [] then some ([.leaf .endOfInput []], []) else none := by
  by_cases hnil : cs = []
  · subst hnil
    rfl
  · simp [Expr.parse, hnil]

end Words

/-! ## Delimited texts -/

section Delimited

variable (line : List Char)

/-- One character is taken, unless the word starts there. -/
lemma parse_anyBut (word : String) (c : Char) (cs : List Char) :
    (anyBut word).parse line skip false (c :: cs) =
      if (literal word (c :: cs)).isSome then none else some ([], cs) := by
  rw [anyBut, parse_seq]
  cases h : literal word (c :: cs) <;> simp [Expr.parse, behindGap, h]

/-- A pair of dollar signs starts at one of two that stand side by side. -/
lemma isSome_dollars_iff (c : Char) (cs : List Char) :
    (literal "$$" (c :: cs)).isSome = true ↔ c = '$' ∧ cs.head? = some '$' := by
  rw [Option.isSome_iff_exists]
  simp only [literal, after_eq_some_iff]
  constructor
  · rintro ⟨rest, hrest⟩
    obtain ⟨rfl, rfl⟩ := List.cons.inj hrest
    exact ⟨rfl, rfl⟩
  · rintro ⟨rfl, hhead⟩
    obtain ⟨rest, rfl⟩ := List.head?_eq_some_iff.1 hhead
    exact ⟨rest, rfl⟩

/-- The text of a description ends in front of the first pair of dollar signs. -/
lemma exists_untilDollars (cs : List Char) :
    ∃ text rest, cs = text ++ rest ∧
      (Expr.many (anyBut "$$")).parse line skip false cs = some ([], rest) ∧
      untilDollars cs = (literal "$$" rest).map (text, ·) := by
  induction cs with
  | nil => exact ⟨[], [], rfl, rfl, rfl⟩
  | cons c cs ih =>
    have htaken := parse_anyBut line "$$" c cs
    rw [untilDollars]
    by_cases hpair : c = '$' ∧ cs.head? = some '$'
    · rw [if_pos ((isSome_dollars_iff c cs).2 hpair)] at htaken
      rw [if_pos hpair]
      refine ⟨[], c :: cs, rfl, parse_many_of_none htaken, ?_⟩
      obtain ⟨rfl, hhead⟩ := hpair
      obtain ⟨rest, rfl⟩ := List.head?_eq_some_iff.1 hhead
      rfl
    · rw [if_neg fun h => hpair ((isSome_dollars_iff c cs).1 h)] at htaken
      rw [if_neg hpair]
      obtain ⟨text, rest, rfl, hmany, hread⟩ := ih
      refine ⟨c :: text, rest, rfl, ?_, ?_⟩
      · rw [parse_many_cons length_skip_le rfl htaken, hmany]
        rfl
      · rw [hread, Option.map_map]
        rfl

variable {line}

/-- A description leaves a node with its text. -/
lemma parse_description (spaced : Bool) (cs : List Char) :
    Grammar.description.parse line skip spaced cs =
      (Script.description cs).map fun x => ([descriptionNode x.1], x.2) := by
  unfold Grammar.description
  refine parse_rule .compound (fun text => [.leaf .descriptionText text]) (Bool.and_false spaced)
    (fun cs => ?_) (fun h => ?_) cs
  · rw [parse_seq_literal, Script.description, Option.map_bind]
    congr 1
    funext cs
    obtain ⟨text, rest, rfl, hmany, hread⟩ := exists_untilDollars line cs
    have htext : descriptionText.parse line skip false (text ++ rest) =
        some ([.leaf .descriptionText text], rest) := parse_atomic rfl hmany false
    rw [Function.comp_apply, hread, parse_seq]
    simp only [behindGap, Bool.false_eq_true, if_false, htext, Option.bind_some, parse_literal,
      Option.map_map]
    rfl
  · rw [(description_eq_some h).1, writeDescription, List.append_assoc, List.append_assoc]

/-- One character is taken, unless it is a quote. -/
lemma parse_notQuote (line cs : List Char) :
    (anyBut "\"").parse line skip false cs =
      if cs.head?.any (· ≠ '"') then some ([], cs.tail) else none := by
  cases cs with
  | nil => rfl
  | cons c cs =>
    rw [parse_anyBut]
    by_cases hc : '"' = c
    · subst hc
      rfl
    · simp [literal, after, hc, Ne.symm hc]

/-- The text of a file name ends in front of the first quote. -/
lemma parse_filenameText (cs : List Char) :
    filenameText.parse line skip false cs =
      if cs.takeWhile (· ≠ '"') = [] then none
      else some ([.leaf .filenameText (cs.takeWhile (· ≠ '"'))], cs.dropWhile (· ≠ '"')) := by
  have hname := parse_plus_of_class length_skip_le rfl (parse_notQuote line) cs
  split
  · rename_i hnil
    rw [if_pos hnil] at hname
    rw [filenameText, parse_rule_eq_map, Bool.false_and, hname]
    rfl
  · rename_i hne
    rw [if_neg hne] at hname
    have hcs : cs.takeWhile (· ≠ '"') ++ cs.dropWhile (· ≠ '"') = cs :=
      List.takeWhile_append_dropWhile
    exact parse_atomic hcs.symm hname false

/-- A file name leaves a node with the name. -/
lemma parse_filename (spaced : Bool) (cs : List Char) :
    filename.parse line skip spaced cs = (fileName cs).map fun x => ([fileNode x.1], x.2) := by
  unfold filename
  refine parse_rule .compound (fun name => [.leaf .filenameText name]) (Bool.and_false spaced)
    (fun cs => ?_) (fun h => (fileName_eq_some h).1) cs
  rw [parse_seq_literal, fileName, Option.bind_eq_bind, Option.map_bind]
  congr 1
  funext cs
  rw [behindGap, if_neg Bool.false_ne_true, parse_seq, parse_filenameText, Function.comp_apply]
  by_cases hnil : cs.takeWhile (· ≠ '"') = []
  · simp only [hnil, if_true]
    rfl
  · simp only [hnil, if_false, Option.bind_some, behindGap, Bool.false_eq_true, parse_literal]
    cases literal "\"" (cs.dropWhile (· ≠ '"')) <;> rfl

/-- An instruction leaves a node with its two numbers. -/
lemma parse_instructionWord (spaced : Bool) (cs : List Char) :
    instructionWord.parse line skip spaced cs =
      (Sentence.instruction cs).map fun x => ([instructionNode x.1], x.2) := by
  unfold instructionWord
  refine parse_rule .compound (fun i => [opcodeNode i.1, wordNode i.2]) (Bool.and_false spaced)
    (fun cs => ?_) (fun h => (instruction_eq_some h).1) cs
  rw [parse_seq, parse_opcode, Sentence.instruction]
  cases opcodeDigits cs with
  | none => rfl
  | some opcode =>
    simp only [Option.map_some, Option.bind_some, parse_seq_literal, behindGap, Bool.false_eq_true,
      if_false, parse_word, Option.bind_eq_bind, Option.map_bind]
    congr 1
    funext rest
    simp only [Function.comp_apply]
    cases Script.signedDigits rest <;> rfl

end Delimited

end AccumulatorMachine.Script.Grammar

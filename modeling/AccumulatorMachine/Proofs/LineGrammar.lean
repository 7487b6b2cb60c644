import AccumulatorMachine.Proofs.ReaderRules

/-!
# The grammar of script lines

The grammar of a script line as data, and the trees that it gives. An expression takes the first way
that it can go and never comes back to try another, as in any grammar of this kind: alternatives are
tried in order, and a repetition takes all that it can.

Between the parts of a sequence or a repetition a gap may stand, unless the rule around them says
otherwise. Every rule that is named here leaves a node in the tree, with the text that it has taken and
the nodes of the rules inside it. Rules without a node of their own are plain definitions.

## Main definitions

* `Grammar.Rule`, `Grammar.Node` — the rules that leave nodes, and the nodes.
* `Grammar.Expr`, `Grammar.Expr.parse` — expressions, and what they take from the front of a text.
* `Grammar.gapExpr` — what may stand between two parts.
* `Grammar.sentence`, `Grammar.tree` — the rule for a whole line, and the tree of a line.

## Main results

* `Grammar.Expr.length_parse` — what an expression leaves is no longer than what it is given.
* `Grammar.parse_many`, `Grammar.parse_many_of_class` — what a repetition takes.
* `Grammar.gapBehind_eq_skip` — a gap of the grammar is what the readers skip.
-/

set_option autoImplicit false

namespace AccumulatorMachine.Script.Grammar

/-- The rules that leave a node in the tree of a line. -/
inductive Rule where
  | instruction | marker | description | descriptionText | filename | filenameText
  | memoryAddress | value | word | opcode
  | memoryInstruction | memoryFlush | memoryLoad | memoryWrite | wordList
  | codeInstruction | codeWrite | instructionList | instructionWord
  | sourceInstruction
  | registersInstruction | registersFlush | registersSet | register
  | runInstruction | runUntilCondition
  | assertInstruction
  | booleanCondition | logicalOperator | boolean | halted | operation | comparisonOperator
  | endOfInput
deriving DecidableEq

/-- What a rule says about the expression behind it. -/
inductive Kind where
  /-- Gaps are allowed as they are around the rule. -/
  | normal
  /-- No gaps are allowed. -/
  | compound
  /-- No gaps are allowed, and there are no nodes inside. -/
  | atomic
deriving DecidableEq

/-- A node of a tree. -/
inductive Node where
  | mk (rule : Rule) (text : List Char) (children : List Node)

namespace Node

/-- The rule that has left a node. -/
def rule : Node → Rule
  | mk rule _ _ => rule

/-- The text that the rule has taken. -/
def text : Node → List Char
  | mk _ text _ => text

/-- The nodes of the rules inside. -/
def children : Node → List Node
  | mk _ _ children => children

/-- A node without nodes inside. -/
def leaf (rule : Rule) (text : List Char) : Node := mk rule text []

end Node

/-- The expressions of the grammar. -/
inductive Expr where
  /-- A fixed word. -/
  | literal (word : String)
  /-- Any character. -/
  | any
  /-- A digit in base 16. -/
  | digit
  /-- The start of the line. -/
  | start
  /-- The end of the line. -/
  | stop
  /-- One expression behind another. -/
  | seq (first second : Expr)
  /-- The first one of two expressions that is there. -/
  | choice (first second : Expr)
  /-- An expression, if it is there. -/
  | optional (e : Expr)
  /-- An expression, as often as it is there. -/
  | many (e : Expr)
  /-- Nothing, unless the expression is there. -/
  | unless (e : Expr)
  /-- A rule that leaves a node. -/
  | rule (name : Rule) (kind : Kind) (body : Expr)

/-- An expression at least once. -/
def Expr.plus (e : Expr) : Expr := .seq e (.many e)

/-- The text in front of a rest. -/
def taken (cs rest : List Char) : List Char := cs.take (cs.length - rest.length)

section Parse

variable (line : List Char) (gap : List Char → List Char)

/-- What is left behind a gap, where gaps are allowed. -/
def behindGap (spaced : Bool) (cs : List Char) : List Char := if spaced then gap cs else cs

/-- What an expression takes from the front of a text that is the rest of a line, as nodes. Whether gaps
are allowed is told by `spaced`, and what is left behind one by `gap`. -/
def Expr.parse : Expr → (spaced : Bool) → Reader (List Node)
  | .literal word, _ => fun cs => (Script.literal word cs).map ([], ·)
  | .any, _ => fun cs => cs.head?.map fun _ => ([], cs.tail)
  | .digit, _ => fun cs => if cs.head?.any Numeral.isDigit then some ([], cs.tail) else none
  | .start, _ => fun cs => if cs = line then some ([], cs) else none
  | .stop, _ => fun cs => if cs = [] then some ([], cs) else none
  | .seq first second, spaced => fun cs =>
    (first.parse spaced cs).bind fun (nodes, mid) =>
      (second.parse spaced (behindGap gap spaced mid)).bind fun (more, rest) =>
        some (nodes ++ more, rest)
  | .choice first second, spaced => fun cs => (first.parse spaced cs).or (second.parse spaced cs)
  | .optional e, spaced => fun cs => some ((e.parse spaced cs).getD ([], cs))
  | .many e, spaced => fun cs =>
    match e.parse spaced cs with
    | none => some ([], cs)
    | some (nodes, mid) =>
      let (more, rest) := repeated (fun cs => e.parse spaced (behindGap gap spaced cs)) mid
      some (nodes ++ more.flatten, rest)
  | .unless e, spaced => fun cs => if (e.parse spaced cs).isSome then none else some ([], cs)
  | .rule name kind body, spaced => fun cs =>
    (body.parse (spaced && kind = .normal) cs).map fun (nodes, rest) =>
      ([.mk name (taken cs rest) (if kind = .atomic then [] else nodes)], rest)

end Parse

/-! ## Gaps -/

/-- A blank or a tab. -/
def whitespace : Expr := .choice (.literal " ") (.literal "\t")

/-- A comment, up to the end of the text. -/
def comment : Expr := .seq (.literal "//") (.many .any)

/-- What may stand between two parts of an expression. -/
def gapExpr : Expr := .seq (.many whitespace) (.many (.seq comment (.many whitespace)))

/-- What is left behind a gap. There are no gaps inside a gap. -/
def gapBehind (cs : List Char) : List Char := ((gapExpr.parse [] id false cs).map Prod.snd).getD cs

/-! ## The rules -/

/-- Any character at which a word does not start. -/
def anyBut (word : String) : Expr := .seq (.unless (.literal word)) .any

/-- The text of a description, up to a pair of dollar signs. -/
def descriptionText : Expr :=
  .rule .descriptionText .atomic (.many (anyBut "$$"))

/-- A description between two pairs of dollar signs, without gaps. -/
def description : Expr :=
  .rule .description .compound (.seq (.literal "$$") (.seq descriptionText (.literal "$$")))

/-- The text of a file name, up to a quote. -/
def filenameText : Expr :=
  .rule .filenameText .atomic (.plus (anyBut "\""))

/-- A file name between two quotes, without gaps. -/
def filename : Expr :=
  .rule .filename .compound (.seq (.literal "\"") (.seq filenameText (.literal "\"")))

/-- An address: its mark and digits in base 16. -/
def memoryAddress : Expr := .rule .memoryAddress .atomic (.seq (.literal "#0x") (.plus .digit))

/-- Digits in base 16, perhaps with a minus sign. -/
def signedDigits : Expr := .seq (.optional (.literal "-")) (.plus .digit)

/-- A value to compare with: its mark and signed digits. -/
def value : Expr := .rule .value .atomic (.seq (.literal "0x") signedDigits)

/-- A word in a list. It has no mark. -/
def word : Expr := .rule .word .atomic signedDigits

/-- An opcode of one digit or two. -/
def opcode : Expr := .rule .opcode .atomic (.seq .digit (.optional .digit))

/-- A list of items between parentheses. -/
def listOf (item : Expr) : Expr :=
  .seq (.literal "0x(") (.seq item (.seq (.many (.seq (.literal ",") item)) (.literal ")")))

/-- The clearing of the machine. -/
def memoryFlush : Expr := .rule .memoryFlush .normal (.literal "flush")

/-- The loading of an image by the name of its file. -/
def memoryLoad : Expr := .rule .memoryLoad .normal (.seq (.literal "load") filename)

/-- A list of words. -/
def wordList : Expr := .rule .wordList .normal (listOf word)

/-- The writing of words from an address on. -/
def memoryWrite : Expr :=
  .rule .memoryWrite .normal (.seq (.literal "write") (.seq memoryAddress wordList))

/-- What may be done to the memory. -/
def memoryInstruction : Expr :=
  .rule .memoryInstruction .normal
    (.seq (.literal "memory") (.choice memoryFlush (.choice memoryLoad memoryWrite)))

/-- An instruction: its opcode and its argument, without a gap around the colon. -/
def instructionWord : Expr :=
  .rule .instructionWord .compound (.seq opcode (.seq (.literal ":") word))

/-- A list of instructions. -/
def instructionList : Expr := .rule .instructionList .normal (listOf instructionWord)

/-- The writing of instructions from an address on. -/
def codeWrite : Expr :=
  .rule .codeWrite .normal (.seq (.literal "write") (.seq memoryAddress instructionList))

/-- What may be done to the code. -/
def codeInstruction : Expr :=
  .rule .codeInstruction .normal (.seq (.literal "code") codeWrite)

/-- The check of a source by the name of its file. -/
def sourceInstruction : Expr :=
  .rule .sourceInstruction .normal (.seq (.literal "source") (.seq (.literal "check") filename))

/-- A register by its name. -/
def register : Expr := .rule .register .normal (.choice (.literal "A") (.literal "PC"))

/-- The clearing of the registers. -/
def registersFlush : Expr := .rule .registersFlush .normal (.literal "flush")

/-- The setting of one register to a value. -/
def registersSet : Expr :=
  .rule .registersSet .normal
    (.seq (.literal "set") (.seq register (.seq (.literal "=") value)))

/-- What may be done to the registers. -/
def registersInstruction : Expr :=
  .rule .registersInstruction .normal
    (.seq (.literal "registers") (.choice registersFlush registersSet))

/-- A quantity to compare. -/
def source : Expr := .choice register (.choice memoryAddress value)

/-- The sign of a comparison. Those of two characters come before those that they start with. -/
def comparisonOperator : Expr :=
  .rule .comparisonOperator .normal
    (.choice (.literal "!=") (.choice (.literal ">=") (.choice (.literal "<=")
      (.choice (.literal "=") (.choice (.literal ">") (.literal "<"))))))

/-- A comparison of two quantities. -/
def operation : Expr := .rule .operation .normal (.seq source (.seq comparisonOperator source))

/-- A truth value by its name. -/
def boolean : Expr := .rule .boolean .normal (.choice (.literal "true") (.literal "false"))

/-- The question whether the machine has halted. -/
def halted : Expr := .rule .halted .normal (.literal "halted")

/-- The word that joins two terms. -/
def logicalOperator : Expr :=
  .rule .logicalOperator .normal (.choice (.literal "AND") (.literal "OR"))

/-- One term of a condition. -/
def booleanTerm : Expr := .choice boolean (.choice halted operation)

/-- A chain of terms. -/
def booleanCondition : Expr :=
  .rule .booleanCondition .normal (.seq booleanTerm (.many (.seq logicalOperator booleanTerm)))

/-- The condition under which a run stops. -/
def runUntilCondition : Expr :=
  .rule .runUntilCondition .normal (.seq (.literal "until") booleanCondition)

/-- A run, perhaps from an address and perhaps up to a condition. -/
def runInstruction : Expr :=
  .rule .runInstruction .normal
    (.seq (.literal "run") (.seq (.optional memoryAddress) (.optional runUntilCondition)))

/-- An assertion: its condition and its description. -/
def assertInstruction : Expr :=
  .rule .assertInstruction .normal (.seq (.literal "assert") (.seq booleanCondition description))

/-- The start of a test plan: its description. -/
def marker : Expr := .rule .marker .normal (.seq (.literal "marker") description)

/-- What a line may say. The first word tells which of these it is. -/
def instruction : Expr :=
  .rule .instruction .normal
    (.choice marker (.choice memoryInstruction (.choice codeInstruction (.choice sourceInstruction
      (.choice registersInstruction (.choice runInstruction assertInstruction))))))

/-- A whole line. Its end leaves a node as well. -/
def sentence : Expr :=
  .seq .start (.seq (.optional instruction) (.rule .endOfInput .normal .stop))

/-- The tree of a line, if the line matches the grammar. -/
def tree (line : List Char) : Option (List Node) :=
  (sentence.parse line gapBehind true line).map Prod.fst

/-! ## Progress -/

section Repeated

variable {α : Type} {item : Reader α}

/-- Items that lengthen no text leave none longer than it was. -/
lemma length_repeatedUpTo_le
    (hitem : ∀ {cs a rest}, item cs = some (a, rest) → rest.length ≤ cs.length) (count : Nat)
    (cs : List Char) : (repeatedUpTo item count cs).2.length ≤ cs.length := by
  induction count generalizing cs with
  | zero => exact le_rfl
  | succ count ih =>
    rw [repeatedUpTo]
    cases h : item cs with
    | none => exact le_rfl
    | some found => exact (ih found.2).trans (hitem h)

variable (hitem : ∀ {cs a rest}, item cs = some (a, rest) → rest.length < cs.length)

include hitem

/-- A text has no more items than characters. -/
lemma repeatedUpTo_eq_repeated {count : Nat} {cs : List Char} (h : cs.length ≤ count) :
    repeatedUpTo item count cs = repeated item cs := by
  rw [repeated]
  generalize hcount : cs.length = count' at h
  replace hcount : cs.length ≤ count' := hcount.le
  induction count generalizing cs count' with
  | zero =>
    obtain rfl : count' = 0 := Nat.le_zero.1 h
    rfl
  | succ count ih =>
    cases count' with
    | zero =>
      have hnone : item cs = none := by
        rw [Option.eq_none_iff_forall_ne_some]
        rintro ⟨a, rest⟩ hfound
        have hlt := hitem hfound
        omega
      simp only [repeatedUpTo, hnone]
    | succ count' =>
      rw [repeatedUpTo, repeatedUpTo]
      cases hfound : item cs with
      | none => rfl
      | some found =>
        have hlt := hitem hfound
        have hrest : repeatedUpTo item count found.2 = repeatedUpTo item count' found.2 :=
          ih count' (by omega) (by omega)
        simp only [hrest]

/-- Items are taken one by one. -/
lemma repeated_eq (cs : List Char) :
    repeated item cs =
      match item cs with
      | none => ([], cs)
      | some (a, rest) => (a :: (repeated item rest).1, (repeated item rest).2) := by
  cases hfound : item cs with
  | none =>
    rw [repeated]
    cases cs.length with
    | zero => rfl
    | succ count => rw [repeatedUpTo, hfound]
  | some found =>
    have hlt := hitem hfound
    rw [← repeatedUpTo_eq_repeated hitem (Nat.le_succ cs.length), repeatedUpTo, hfound]
    simp only [repeatedUpTo_eq_repeated hitem hlt.le]

omit hitem in
/-- Where no item is taken, nothing is. -/
lemma repeated_snd_of_fst_eq_nil {cs : List Char} (h : (repeated item cs).1 = []) :
    (repeated item cs).2 = cs := by
  rw [repeated] at h ⊢
  generalize cs.length = count at h
  cases count with
  | zero => rfl
  | succ count =>
    rw [repeatedUpTo] at h ⊢
    split
    · rfl
    · rename_i hfound
      rw [hfound] at h
      cases h

end Repeated

/-- The expression takes at least one character, as far as its form tells. -/
def Expr.takes : Expr → Bool
  | .literal word => word ≠ ""
  | .any | .digit => true
  | .seq first second => first.takes || second.takes
  | .choice first second => first.takes && second.takes
  | .rule _ _ body => body.takes
  | .start | .stop | .optional _ | .many _ | .unless _ => false

section Progress

variable {line : List Char} {gap : List Char → List Char}

/-- A literal shortens a text, unless it is empty. -/
lemma length_literal {word : String} {cs rest : List Char} (h : literal word cs = some rest) :
    rest.length + (decide (word ≠ "")).toNat ≤ cs.length := by
  obtain rfl := after_eq_some_iff.1 h
  rw [List.length_append, Nat.add_comm]
  refine Nat.add_le_add_right ?_ _
  rcases eq_or_ne word "" with rfl | hword
  · exact Nat.zero_le _
  · have hne : word.toList ≠ [] := fun hnil => hword (String.toList_eq_nil_iff.1 hnil)
    exact (Bool.toNat_le _).trans (List.length_pos_of_ne_nil hne)

/-- An expression that is not there is there no times. -/
lemma parse_many_of_none {e : Expr} {spaced : Bool} {cs : List Char}
    (h : e.parse line gap spaced cs = none) :
    (Expr.many e).parse line gap spaced cs = some ([], cs) := by
  simp only [Expr.parse, h]

/-- An expression that is there may be there again behind it, with a gap between the two where gaps are
allowed. -/
lemma parse_many_of_some {e : Expr} {spaced : Bool} {cs mid : List Char} {nodes : List Node}
    (h : e.parse line gap spaced cs = some (nodes, mid)) :
    (Expr.many e).parse line gap spaced cs =
      let (more, rest) := repeated (fun cs => e.parse line gap spaced (behindGap gap spaced cs)) mid
      some (nodes ++ more.flatten, rest) := by
  simp only [Expr.parse, h]

variable (hgap : ∀ cs, (gap cs).length ≤ cs.length)

include hgap

/-- A text is not longer behind a gap, whether gaps are allowed or not. -/
lemma length_behindGap_le (spaced : Bool) (cs : List Char) :
    (behindGap gap spaced cs).length ≤ cs.length := by
  cases spaced with
  | false => exact le_rfl
  | true => exact hgap cs

/-- No expression leaves more than it is given, and some leave less.

**Proof sketch.** Induction on the expression. Gaps only take something off. -/
lemma Expr.length_parse {e : Expr} {spaced : Bool} {cs rest : List Char} {nodes : List Node}
    (h : e.parse line gap spaced cs = some (nodes, rest)) :
    rest.length + e.takes.toNat ≤ cs.length := by
  induction e generalizing spaced cs rest nodes with
  | literal word =>
    obtain ⟨_, htaken, hresult⟩ := Option.map_eq_some_iff.1 h
    obtain ⟨-, rfl⟩ := Prod.mk.inj hresult
    exact length_literal htaken
  | any =>
    cases cs with
    | nil => cases h
    | cons c cs =>
      obtain ⟨-, rfl⟩ := Prod.mk.inj (Option.some.inj h)
      exact le_rfl
  | digit =>
    obtain ⟨hdigit, hresult⟩ := Option.ite_none_right_eq_some.1 h
    obtain ⟨-, rfl⟩ := Prod.mk.inj (Option.some.inj hresult)
    cases cs with
    | nil => cases hdigit
    | cons c cs => exact le_rfl
  | start | stop =>
    obtain ⟨-, hresult⟩ := Option.ite_none_right_eq_some.1 h
    obtain ⟨-, rfl⟩ := Prod.mk.inj (Option.some.inj hresult)
    exact le_rfl
  | seq first second hfirst hsecond =>
    obtain ⟨⟨_, mid⟩, htaken, hbehind⟩ := Option.bind_eq_some_iff.1 h
    obtain ⟨⟨_, _⟩, hmore, hresult⟩ := Option.bind_eq_some_iff.1 hbehind
    obtain ⟨-, rfl⟩ := Prod.mk.inj (Option.some.inj hresult)
    have hmid := hfirst htaken
    have hrest := hsecond hmore
    have hskip := length_behindGap_le hgap spaced mid
    have htakes : (first.takes || second.takes).toNat ≤ first.takes.toNat + second.takes.toNat := by
      cases first.takes <;> simp
    simp only [Expr.takes]
    omega
  | choice first second hfirst hsecond =>
    have htakes : (first.takes && second.takes).toNat ≤ first.takes.toNat ∧
        (first.takes && second.takes).toNat ≤ second.takes.toNat := by
      cases first.takes <;> cases second.takes <;> decide
    simp only [Expr.takes]
    rcases Option.or_eq_some_iff.1 h with htaken | ⟨-, htaken⟩
    · have hrest := hfirst htaken
      omega
    · have hrest := hsecond htaken
      omega
  | optional e ih =>
    obtain hresult := Option.some.inj h
    cases htaken : e.parse line gap spaced cs with
    | none =>
      rw [htaken] at hresult
      obtain ⟨-, rfl⟩ := Prod.mk.inj hresult
      exact le_rfl
    | some found =>
      rw [htaken] at hresult
      obtain rfl : found = (nodes, rest) := hresult
      exact (Nat.le_add_right _ _).trans (ih htaken)
  | many e ih =>
    have hitem : ∀ {cs found rest}, e.parse line gap spaced (behindGap gap spaced cs) =
        some (found, rest) → rest.length ≤ cs.length := fun htaken =>
      ((Nat.le_add_right _ _).trans (ih htaken)).trans (length_behindGap_le hgap spaced _)
    simp only [Expr.parse] at h
    split at h
    · obtain ⟨-, rfl⟩ := Prod.mk.inj (Option.some.inj h)
      exact le_rfl
    · rename_i found mid htaken
      obtain ⟨-, rfl⟩ := Prod.mk.inj (Option.some.inj h)
      exact (length_repeatedUpTo_le hitem _ mid).trans ((Nat.le_add_right _ _).trans (ih htaken))
  | «unless» e _ =>
    obtain ⟨-, hresult⟩ := Option.ite_none_left_eq_some.1 h
    obtain ⟨-, rfl⟩ := Prod.mk.inj (Option.some.inj hresult)
    exact le_rfl
  | rule name kind body ih =>
    obtain ⟨_, htaken, hresult⟩ := Option.map_eq_some_iff.1 h
    obtain ⟨-, rfl⟩ := Prod.mk.inj hresult
    exact ih htaken

/-- A repetition takes its items one by one, each of them behind a gap. Where it stands behind a gap
itself, it takes this gap as well if there is no item. -/
lemma parse_many (line : List Char) {e : Expr} (htakes : e.takes = true) (spaced : Bool)
    (cs : List Char) :
    (Expr.many e).parse line gap spaced (behindGap gap spaced cs) =
      let (found, rest) := repeated (fun cs => e.parse line gap spaced (behindGap gap spaced cs)) cs
      some (found.flatten, if found = [] then behindGap gap spaced cs else rest) := by
  have hitem : ∀ {cs found rest}, e.parse line gap spaced (behindGap gap spaced cs) =
      some (found, rest) → rest.length < cs.length := by
    intro cs found rest htaken
    have hlt := Expr.length_parse hgap htaken
    have hskip := length_behindGap_le hgap spaced cs
    rw [htakes, Bool.toNat_true] at hlt
    omega
  rw [repeated_eq hitem]
  simp only [Expr.parse]
  cases e.parse line gap spaced (behindGap gap spaced cs) with
  | none => rfl
  | some found => rfl

/-- A repetition takes its first item and then goes on, where no gaps are allowed. -/
lemma parse_many_cons {e : Expr} (htakes : e.takes = true) {cs mid : List Char} {nodes : List Node}
    (h : e.parse line gap false cs = some (nodes, mid)) :
    (Expr.many e).parse line gap false cs =
      ((Expr.many e).parse line gap false mid).map fun more => (nodes ++ more.1, more.2) := by
  have hmany := parse_many hgap line htakes false mid
  simp only [behindGap, Bool.false_eq_true, if_false] at hmany
  rw [parse_many_of_some h, hmany]
  simp only [behindGap, Bool.false_eq_true, if_false, Option.map_some]
  split
  · rename_i hnil
    rw [repeated_snd_of_fst_eq_nil hnil]
  · rfl

end Progress

/-! ## Runs of single characters -/

section Class

variable {line : List Char} {gap : List Char → List Char} {e : Expr} {p : Char → Bool}
  (hgap : ∀ cs, (gap cs).length ≤ cs.length) (htakes : e.takes = true)
  (he : ∀ cs, e.parse line gap false cs = if cs.head?.any p then some ([], cs.tail) else none)

include hgap htakes he

/-- A repetition of single characters takes the longest run of them. -/
lemma parse_many_of_class (cs : List Char) :
    (Expr.many e).parse line gap false cs = some ([], cs.dropWhile p) := by
  induction cs with
  | nil => exact parse_many_of_none (he [])
  | cons c cs ih =>
    have htaken := he (c :: cs)
    rw [List.head?_cons, Option.any_some, List.tail_cons] at htaken
    rw [List.dropWhile_cons]
    cases hc : p c with
    | false =>
      rw [hc] at htaken
      exact parse_many_of_none htaken
    | true =>
      rw [hc] at htaken
      rw [parse_many_cons hgap htakes htaken, ih]
      rfl

/-- At least one character is taken, and then the longest run. -/
lemma parse_plus_of_class (cs : List Char) :
    (Expr.plus e).parse line gap false cs =
      if cs.takeWhile p = [] then none else some ([], cs.dropWhile p) := by
  have hmany := parse_many_of_class hgap htakes he
  rw [Expr.plus, Expr.parse]
  simp only [he, behindGap, Bool.false_eq_true, if_false, hmany]
  cases cs with
  | nil => rfl
  | cons c cs =>
    cases hc : p c with
    | false => simp [hc]
    | true => simp [hc]

end Class

/-! ## Gaps -/

/-- Skipping lengthens no text. -/
lemma length_skip_le (cs : List Char) : (skip cs).length ≤ cs.length := by
  rw [skip]
  split
  · exact Nat.zero_le _
  · exact Text.length_dropWhile_le isGap cs

/-- Nor does doing nothing. -/
lemma length_id_le (cs : List Char) : (id cs).length ≤ cs.length := le_rfl

/-- A blank or a tab is taken if there is one. -/
lemma parse_whitespace (cs : List Char) :
    whitespace.parse [] id false cs = if cs.head?.any isGap then some ([], cs.tail) else none := by
  cases cs with
  | nil => rfl
  | cons c cs =>
    by_cases hblank : c = ' '
    · subst hblank
      rfl
    · by_cases htab : c = '\t'
      · subst htab
        rfl
      · have hgap : isGap c = false := by simp [isGap, hblank, htab]
        simp [whitespace, Expr.parse, literal, after, hgap, Ne.symm hblank, Ne.symm htab]

/-- What two expressions leave in the tree stands side by side. -/
lemma parse_seq (line : List Char) (gap : List Char → List Char) (first second : Expr)
    (spaced : Bool) (cs : List Char) :
    (Expr.seq first second).parse line gap spaced cs =
      (first.parse line gap spaced cs).bind fun found =>
        (second.parse line gap spaced (behindGap gap spaced found.2)).map fun more =>
          (found.1 ++ more.1, more.2) := by
  simp only [Expr.parse, Option.map_eq_bind]
  rfl

/-- A word in front of an expression is taken first. -/
lemma parse_seq_literal (line : List Char) (gap : List Char → List Char) (word : String) (e : Expr)
    (spaced : Bool) (cs : List Char) :
    (Expr.seq (.literal word) e).parse line gap spaced cs =
      (literal word cs).bind fun rest => e.parse line gap spaced (behindGap gap spaced rest) := by
  simp only [Expr.parse, Option.bind_map, Function.comp_def, List.nil_append, Prod.mk.eta,
    Option.bind_fun_some]

/-- A comment has no end but that of the text. -/
lemma parse_comment (cs : List Char) :
    comment.parse [] id false cs = if commentMark.isPrefixOf cs then some ([], []) else none := by
  have hany : ∀ cs, Expr.any.parse [] id false cs =
      if cs.head?.any fun _ => true then some ([], cs.tail) else none := by
    intro cs
    cases cs <;> rfl
  have hmany : ∀ cs, (Expr.many .any).parse [] id false cs = some ([], []) := by
    intro cs
    have hrun := parse_many_of_class length_id_le rfl hany cs
    rwa [List.dropWhile_eq_nil_iff.2 fun _ _ => rfl] at hrun
  rw [comment, parse_seq_literal]
  simp only [hmany]
  by_cases h : commentMark <+: cs
  · obtain ⟨rest, rfl⟩ := h
    have hword : literal "//" (commentMark ++ rest) = some rest := after_eq_some_iff.2 rfl
    rw [hword, if_pos (List.isPrefixOf_iff_prefix.2 (List.prefix_append _ _))]
    rfl
  · have hword : literal "//" cs = none := by
      rw [Option.eq_none_iff_forall_ne_some]
      intro rest hrest
      exact h ⟨rest, (after_eq_some_iff.1 hrest).symm⟩
    rw [hword, if_neg fun hprefix => h (List.isPrefixOf_iff_prefix.1 hprefix)]
    rfl

/-- **A gap of the grammar is what the readers skip.** -/
lemma gapBehind_eq_skip : gapBehind = skip := by
  have hblanks : ∀ cs, (Expr.many whitespace).parse [] id false cs = some ([], cs.dropWhile isGap) :=
    parse_many_of_class length_id_le rfl parse_whitespace
  have hcomment : ∀ cs, (Expr.seq comment (.many whitespace)).parse [] id false cs =
      if commentMark.isPrefixOf cs then some ([], []) else none := by
    intro cs
    rw [parse_seq, parse_comment]
    by_cases h : commentMark.isPrefixOf cs <;> simp [h, hblanks, behindGap]
  have hcomments : ∀ cs, (Expr.many (.seq comment (.many whitespace))).parse [] id false cs =
      some ([], if commentMark.isPrefixOf cs then [] else cs) := by
    intro cs
    by_cases h : commentMark.isPrefixOf cs
    · rw [if_pos h]
      exact parse_many_of_some ((hcomment cs).trans (if_pos h))
    · rw [if_neg h]
      exact parse_many_of_none ((hcomment cs).trans (if_neg h))
  funext cs
  rw [gapBehind, gapExpr, parse_seq, hblanks]
  simp only [Option.bind_some, behindGap, Bool.false_eq_true, if_false, hcomments, Option.map_some,
    Option.getD_some]
  rfl

end AccumulatorMachine.Script.Grammar

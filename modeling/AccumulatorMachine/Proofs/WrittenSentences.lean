import AccumulatorMachine.Proofs.ReaderRules
import AccumulatorMachine.Script.Sentence

/-!
# Written sentences

Sentences as lines of a script, and what is read from such lines. The words of a line are set apart by a
gap, which may be any blanks and tabs. Nothing needs a gap but a number with a word behind it, for the
first letters of `AND` and of `A` are digits as well.

Each reader has one rule: what is written is read again, whatever stands behind it, as long as this does
not go on with a number. The rules are put together as the readers are.

## Main definitions

* `Sentence.write` — the line of a sentence.
* `Sentence.WellSpelled` — a sentence that can be written: its numbers have digits, its lists are not
  empty, and its texts do not hold the marks that end them.

## Main results

* `Sentence.condition_append` — a written condition is read again.
* `Sentence.items_append` — a written list is read again.
* `Sentence.read_write` — a written sentence is read again.
-/

set_option autoImplicit false

namespace AccumulatorMachine

/-- The sign of a relation in a script. -/
def Comparison.scriptSign : Comparison → String
  | equal => "="
  | atLeast => ">="
  | above => ">"
  | atMost => "<="
  | below => "<"
  | different => "!="

/-- The word that joins two terms in a script. -/
def Connective.word : Connective → String
  | and => "AND"
  | or => "OR"

namespace Script

/-! ## Writing -/

/-- A register by its name, the address of a cell, or a word. -/
def QuantityText.write : QuantityText → List Char
  | register name => name.text.toList
  | cell digits => "#0x".toList ++ digits
  | word digits => "0x".toList ++ digits

/-- A cell is marked by a hash in front of its address. -/
lemma QuantityText.write_cell (digits : List Char) : (cell digits).write = "#0x".toList ++ digits :=
  rfl

/-- A word stands behind its prefix. -/
lemma QuantityText.write_word (digits : List Char) : (word digits).write = "0x".toList ++ digits :=
  rfl

/-- A description between its dollar signs. -/
def writeDescription (text : List Char) : List Char := "$$".toList ++ (text ++ "$$".toList)

/-- A file name between its quotes. -/
def writeFileName (name : List Char) : List Char := "\"".toList ++ (name ++ "\"".toList)

/-- An opcode and an argument with a colon between them. -/
def writeInstruction (i : List Char × List Char) : List Char := i.1 ++ (":".toList ++ i.2)

/-- An item of a list behind another one. -/
def writeNext {α : Type} (write : α → List Char) (a : α) : List Char := ",".toList ++ write a

/-- A list between parentheses. -/
def writeItems {α : Type} (write : α → List Char) : List α → List Char
  | [] => "0x()".toList
  | first :: rest =>
    "0x(".toList ++ (write first ++ (rest.flatMap (writeNext write) ++ ")".toList))

/-- A list with an item in it. -/
lemma writeItems_cons {α : Type} (write : α → List Char) (first : α) (rest : List α) :
    writeItems write (first :: rest) =
      "0x(".toList ++ (write first ++ (rest.flatMap (writeNext write) ++ ")".toList)) := rfl

section Gap

variable (gap : List Char)

/-- A term: a word of its own, or two quantities and a sign with gaps around it. -/
def TermText.write : TermText → List Char
  | constant true => "true".toList
  | constant false => "false".toList
  | halted => "halted".toList
  | compare left c right =>
    left.write ++ (gap ++ (c.scriptSign.toList ++ (gap ++ right.write)))

/-- The sign of a comparison stands between two gaps. -/
lemma TermText.write_compare (left : QuantityText) (c : Comparison) (right : QuantityText) :
    (compare left c right).write gap =
      left.write ++ (gap ++ (c.scriptSign.toList ++ (gap ++ right.write))) := rfl

/-- One more term of a chain. -/
def writeLink (link : Connective × TermText) : List Char :=
  gap ++ (link.1.word.toList ++ (gap ++ link.2.write gap))

/-- A chain: its first term, and then each further term behind a gap. -/
def ConditionText.write (c : ConditionText) : List Char :=
  c.first.write gap ++ c.rest.flatMap (writeLink gap)

/-- The stop condition of a run. -/
def writeUntil (c : ConditionText) : List Char := "until".toList ++ (gap ++ c.write gap)

namespace Sentence

/-- The first word of a sentence. -/
def firstWord : Sentence → String
  | marker _ => "marker"
  | flushMemory | load _ | writeData _ _ => "memory"
  | writeCode _ _ => "code"
  | checkSource _ => "source"
  | flushRegisters | setRegister _ _ => "registers"
  | run _ _ => "run"
  | claim _ _ => "assert"

/-- What a sentence says behind its first word. -/
def body : Sentence → List Char
  | marker text => gap ++ writeDescription text
  | flushMemory | flushRegisters => gap ++ "flush".toList
  | load file => gap ++ ("load".toList ++ (gap ++ writeFileName file))
  | writeData address words =>
    gap ++ ("write".toList ++ (gap ++ ("#0x".toList ++ (address ++ (gap ++ writeItems id words)))))
  | writeCode address instructions =>
    gap ++ ("write".toList ++ (gap ++ ("#0x".toList ++
      (address ++ (gap ++ writeItems writeInstruction instructions)))))
  | checkSource file => gap ++ ("check".toList ++ (gap ++ writeFileName file))
  | setRegister name value =>
    gap ++ ("set".toList ++ (gap ++ (name.text.toList ++ ("=".toList ++ ("0x".toList ++ value)))))
  | run start stop =>
    start.elim [] (fun address => gap ++ ("#0x".toList ++ address)) ++
      stop.elim [] fun c => gap ++ writeUntil gap c
  | claim c text => gap ++ (c.write gap ++ (gap ++ writeDescription text))

/-- The line of a sentence. -/
def write (s : Sentence) : List Char := s.firstWord.toList ++ s.body gap

end Sentence

end Gap

/-! ## What can be written -/

/-- An address has digits, and a word has digits behind its sign. -/
def QuantityText.WellSpelled : QuantityText → Prop
  | register _ => True
  | cell digits => IsHex digits
  | word digits => IsSignedHex digits

/-- Both sides of a comparison can be written. -/
def TermText.WellSpelled : TermText → Prop
  | compare left _ right => left.WellSpelled ∧ right.WellSpelled
  | constant _ | halted => True

/-- Every term of the chain can be written. -/
structure ConditionText.WellSpelled (c : ConditionText) : Prop where
  first : c.first.WellSpelled
  rest : ∀ link ∈ c.rest, link.2.WellSpelled

/-- A text that may stand between dollar signs. -/
structure IsDescription (text : List Char) : Prop where
  /-- It holds no pair of dollar signs. -/
  not_infix : ¬ ['$', '$'] <:+: text
  /-- It makes no pair with the dollar signs that end it. -/
  getLast?_ne : text.getLast? ≠ some '$'

/-- A text that may stand between quotes. -/
structure IsFileName (name : List Char) : Prop where
  ne_nil : name ≠ []
  not_mem : '"' ∉ name

/-- An opcode of one digit or two, and an argument. -/
structure IsInstruction (i : List Char × List Char) : Prop where
  opcode : IsHex i.1
  length_opcode : i.1.length ≤ 2
  arg : IsSignedHex i.2

/-- The sentence can be written. -/
def Sentence.WellSpelled : Sentence → Prop
  | marker text => IsDescription text
  | flushMemory | flushRegisters => True
  | load file | checkSource file => IsFileName file
  | writeData address words => IsHex address ∧ words ≠ [] ∧ ∀ w ∈ words, IsSignedHex w
  | writeCode address instructions =>
    IsHex address ∧ instructions ≠ [] ∧ ∀ i ∈ instructions, IsInstruction i
  | setRegister _ value => IsSignedHex value
  | run start stop => (∀ address ∈ start, IsHex address) ∧ ∀ c ∈ stop, c.WellSpelled
  | claim c text => c.WellSpelled ∧ IsDescription text

namespace Sentence

/-! ## Quantities and terms -/

/-- The name of a register is read again, whatever stands behind it. -/
lemma registerName_append (name : RegisterName) (rest : List Char) :
    registerName (name.text.toList ++ rest) = some (name, rest) := by
  cases name <;> rfl

/-- No blank stands in front of the name of a register. -/
lemma startsToken_registerName (name : RegisterName) (rest : List Char) :
    StartsToken (name.text.toList ++ rest) := by
  cases name <;> exact startsToken_cons (by decide) (by decide) _

/-- No blank stands in front of a quantity. -/
lemma startsToken_quantity (q : QuantityText) (rest : List Char) :
    StartsToken (q.write ++ rest) := by
  cases q with
  | register name => exact startsToken_registerName name rest
  | cell digits | word digits => exact startsToken_cons (by decide) (by decide) _

/-- A quantity is read again, if what stands behind it does not go on with a number. -/
lemma quantity_append {q : QuantityText} (h : q.WellSpelled) {rest : List Char}
    (hrest : EndsNumber rest) : quantity (q.write ++ rest) = some (q, rest) := by
  cases q with
  | register name => cases name <;> rfl
  | cell digits =>
    have hname : registerName ("#0x".toList ++ (digits ++ rest)) = none := rfl
    rw [QuantityText.write_cell, List.append_assoc, quantity, hname, cellDigits_append h hrest]
    rfl
  | word digits =>
    have hname : registerName ("0x".toList ++ (digits ++ rest)) = none := rfl
    have hcell : cellDigits ("0x".toList ++ (digits ++ rest)) = none := rfl
    rw [QuantityText.write_word, List.append_assoc, quantity, hname, hcell, wordDigits_append h hrest]
    rfl

variable {gap : List Char}

/-- A quantity, perhaps behind blanks, does not continue the sign of a relation. -/
lemma head?_spaces_quantity_ne {gap : List Char} (hgap : Spaces gap) (q : QuantityText)
    (rest : List Char) : (gap ++ (q.write ++ rest)).head? ≠ some '=' := by
  cases gap with
  | cons c gap =>
    rintro hc
    obtain rfl : c = '=' := Option.some.inj hc
    exact absurd (hgap '=' List.mem_cons_self) (by decide)
  | nil =>
    cases q with
    | register name => cases name <;> exact fun h => absurd (Option.some.inj h) (by decide)
    | cell digits | word digits => exact fun h => absurd (Option.some.inj h) (by decide)

/-- The sign of a relation is read if no other sign continues it, as `>=` continues `>`. -/
lemma comparison_append (c : Comparison) {rest : List Char} (hrest : rest.head? ≠ some '=') :
    comparison (c.scriptSign.toList ++ rest) = some (c, rest) := by
  cases rest with
  | nil => cases c <;> rfl
  | cons d rest =>
    have hd : '=' ≠ d := fun h => hrest (h ▸ rfl)
    cases c with
    | equal | atLeast | atMost | different => rfl
    | above | below => simp [comparison, signs, Comparison.scriptSign, literal, Script.after, hd]

/-- No quantity starts as the words do that are terms. -/
lemma literal_quantity_eq_none {word : String} (hword : word ∈ ["true", "false", "halted"])
    (q : QuantityText) (rest : List Char) : literal word (q.write ++ rest) = none := by
  simp only [List.mem_cons, List.not_mem_nil, or_false] at hword
  rcases hword with rfl | rfl | rfl <;> cases q with
  | register name => cases name <;> rfl
  | cell digits | word digits => rfl

/-- No blank stands in front of the sign of a relation. -/
lemma startsToken_scriptSign (c : Comparison) (rest : List Char) :
    StartsToken (c.scriptSign.toList ++ rest) := by
  cases c <;> exact startsToken_append (by decide) (by decide) rest

/-- A comparison is read with blanks around its sign, or without. -/
lemma term_compare {left right : QuantityText} (c : Comparison) {gap gap' rest : List Char}
    (hgap : Spaces gap) (hgap' : Spaces gap') (hleft : left.WellSpelled)
    (hright : quantity (right.write ++ rest) = some (right, rest)) :
    term (left.write ++ (gap ++ (c.scriptSign.toList ++ (gap' ++ (right.write ++ rest))))) =
      some (.compare left c right, rest) := by
  have hends : ∀ cs, EndsNumber (gap ++ (c.scriptSign.toList ++ cs)) := by
    refine fun cs => endsNumber_spaces hgap ?_
    cases c <;> exact endsNumber_cons (by decide) _
  rw [term, literal_quantity_eq_none (by simp), literal_quantity_eq_none (by simp),
    literal_quantity_eq_none (by simp), quantity_append hleft (hends _)]
  simp only [Option.map_none, Option.none_or, Option.bind_eq_bind, Option.bind_some]
  rw [skip_append hgap (startsToken_scriptSign c _),
    comparison_append c (head?_spaces_quantity_ne hgap' right rest)]
  simp only [Option.bind_some]
  rw [skip_append hgap' (startsToken_quantity right rest), hright]
  rfl

/-- A term is read again with gaps around the sign of its relation. -/
lemma term_append (hgap : IsGap gap) {t : TermText} (h : t.WellSpelled) {rest : List Char}
    (hrest : EndsNumber rest) : term (t.write gap ++ rest) = some (t, rest) := by
  cases t with
  | constant b => cases b <;> rfl
  | halted => rfl
  | compare left c right =>
    have hwrite : (TermText.compare left c right).write gap ++ rest =
        left.write ++ (gap ++ (c.scriptSign.toList ++ (gap ++ (right.write ++ rest)))) := by
      simp only [TermText.write_compare, List.append_assoc]
    rw [hwrite, term_compare c hgap.isGap hgap.isGap h.1 (quantity_append h.2 hrest)]

/-- No blank stands in front of a term. -/
lemma startsToken_term (t : TermText) (rest : List Char) : StartsToken (t.write gap ++ rest) := by
  cases t with
  | constant b => cases b <;> exact startsToken_cons (by decide) (by decide) _
  | halted => exact startsToken_cons (by decide) (by decide) _
  | compare left c right =>
    rw [TermText.write_compare, List.append_assoc]
    exact startsToken_quantity left _

/-! ## Conditions -/

/-- The word that joins two terms is read again, whatever stands behind it. -/
lemma connective_append (join : Connective) (rest : List Char) :
    connective (join.word.toList ++ rest) = some (join, rest) := by
  cases join <;> rfl

/-- No blank stands in front of the word that joins two terms. -/
lemma startsToken_connective (join : Connective) (rest : List Char) :
    StartsToken (join.word.toList ++ rest) := by
  cases join <;> exact startsToken_append (by decide) (by decide) rest

/-- One more term of a chain is read with blanks around the word in front of it, or without. -/
lemma link_of_term {join : Connective} {t : TermText} {gap gap' text rest : List Char}
    (hgap : Spaces gap) (hgap' : Spaces gap') (hstart : StartsToken (text ++ rest))
    (hterm : term (text ++ rest) = some (t, rest)) :
    link (gap ++ (join.word.toList ++ (gap' ++ (text ++ rest)))) = some ((join, t), rest) := by
  rw [link, skip_append hgap (startsToken_connective join _), connective_append]
  simp only [Option.bind_eq_bind, Option.bind_some]
  rw [skip_append hgap' hstart, hterm]
  rfl

/-- One more term of a chain is read again with its gaps. -/
lemma link_append (hgap : IsGap gap) {l : Connective × TermText} (h : l.2.WellSpelled)
    {rest : List Char} (hrest : EndsNumber rest) :
    link (writeLink gap l ++ rest) = some (l, rest) := by
  have hwrite : writeLink gap l ++ rest =
      gap ++ (l.1.word.toList ++ (gap ++ (l.2.write gap ++ rest))) := by
    simp only [writeLink, List.append_assoc]
  rw [hwrite, link_of_term hgap.isGap hgap.isGap (startsToken_term _ _) (term_append hgap h hrest)]

/-- No further term of a chain stands where a description does. -/
lemma link_description {gap : List Char} (hgap : Spaces gap) (cs : List Char) :
    link (gap ++ ("$$".toList ++ cs)) = none := by
  rw [link, skip_append hgap (startsToken_append (by decide) (by decide) cs)]
  rfl

/-- A written condition is read again, if nothing behind it goes on with a number or a chain. -/
lemma condition_append (hgap : IsGap gap) {c : ConditionText} (h : c.WellSpelled) {rest : List Char}
    (hrest : EndsNumber rest) (hstop : link rest = none) :
    condition (c.write gap ++ rest) = some (c, rest) := by
  have hlinks : ∀ l cs, EndsNumber (writeLink gap l ++ cs) := by
    intro l cs
    rw [writeLink, List.append_assoc]
    exact endsNumber_gap hgap _
  have hnil : ∀ l, writeLink gap l ≠ [] := by
    intro l
    rw [writeLink]
    exact List.append_ne_nil_of_left_ne_nil hgap.ne_nil _
  have hfirst : EndsNumber (c.rest.flatMap (writeLink gap) ++ rest) :=
    next_flatMap (fun l _ => hlinks l) hrest
  rw [ConditionText.write, List.append_assoc, condition, term_append hgap h.first hfirst]
  simp only [Option.bind_eq_bind, Option.bind_some]
  rw [repeated_flatMap (fun l hl _ => link_append hgap (h.rest l hl)) (fun l _ => hlinks l)
    (fun l _ => hnil l) hrest hstop]

/-- No blank stands in front of a condition. -/
lemma startsToken_condition (c : ConditionText) (rest : List Char) :
    StartsToken (c.write gap ++ rest) := by
  rw [ConditionText.write, List.append_assoc]
  exact startsToken_term c.first _

/-! ## Lists -/

section Items

variable {α : Type} {item : Reader α} {write : α → List Char}

/-- A comma leads to the next item. -/
lemma nextItem_append {a : α} {rest : List Char} (hitem : item (write a ++ rest) = some (a, rest))
    (hstart : StartsToken (write a ++ rest)) :
    nextItem item (writeNext write a ++ rest) = some (a, rest) := by
  have hcomma : StartsToken (",".toList ++ (write a ++ rest)) :=
    startsToken_append (by decide) (by decide) _
  rw [writeNext, List.append_assoc, nextItem, token, skip_eq_self hcomma, literal_append]
  simp only [Option.bind_eq_bind, Option.bind_some]
  rw [skip_eq_self hstart, hitem]

/-- There is no next item at the end of a list. -/
lemma nextItem_eq_none (item : Reader α) (rest : List Char) :
    nextItem item (")".toList ++ rest) = none := by
  have hcomma : literal "," (")".toList ++ rest) = none := rfl
  rw [nextItem, token, skip_eq_self (startsToken_append (by decide) (by decide) rest), hcomma]
  rfl

/-- A written list is read again, if its items are, in front of anything that goes on with no number. -/
lemma items_append {l : List α} (hne : l ≠ [])
    (hitem : ∀ a ∈ l, ∀ rest, EndsNumber rest → item (write a ++ rest) = some (a, rest))
    (hstart : ∀ a ∈ l, ∀ rest, StartsToken (write a ++ rest)) (rest : List Char) :
    items item (writeItems write l ++ rest) = some (l, rest) := by
  obtain ⟨first, more, rfl⟩ := List.exists_cons_of_ne_nil hne
  have hnext : ∀ a ∈ more, ∀ cs, EndsNumber cs →
      nextItem item (writeNext write a ++ cs) = some (a, cs) := by
    intro a ha cs hcs
    have hmem : a ∈ first :: more := List.mem_cons_of_mem _ ha
    exact nextItem_append (hitem a hmem cs hcs) (hstart a hmem cs)
  have hcomma : ∀ a cs, EndsNumber (writeNext write a ++ cs) :=
    fun _ _ => endsNumber_cons (by decide) _
  have hbracket : EndsNumber (")".toList ++ rest) := endsNumber_cons (by decide) rest
  have hmore : EndsNumber (more.flatMap (writeNext write) ++ (")".toList ++ rest)) :=
    next_flatMap (fun a _ => hcomma a) hbracket
  have hwrite : writeItems write (first :: more) ++ rest =
      "0x(".toList ++ (write first ++ (more.flatMap (writeNext write) ++ (")".toList ++ rest))) := by
    simp only [writeItems_cons, List.append_assoc]
  rw [hwrite, items, literal_append]
  simp only [Option.bind_eq_bind, Option.bind_some]
  rw [skip_eq_self (hstart first List.mem_cons_self _), hitem first List.mem_cons_self _ hmore]
  simp only [Option.bind_some]
  rw [repeated_flatMap hnext (fun a _ => hcomma a) (fun a _ => List.cons_ne_nil _ _) hbracket
    (nextItem_eq_none item rest)]
  have hclose : token ")" (")".toList ++ rest) = some rest := by
    rw [token, skip_eq_self (startsToken_append (by decide) (by decide) rest), literal_append]
  simp only [hclose, Option.bind_some]

end Items

/-! ## Commands -/

/-- What is read in front of anything is also read at the end of a line. -/
lemma read_of_append_nil {α : Type} {reader : Reader α} {text : List Char} {a : α}
    (h : reader (text ++ []) = some (a, [])) : reader text = some (a, []) := by
  rwa [List.append_nil] at h

/-- No blank stands in front of a description. -/
lemma startsToken_description (text : List Char) : StartsToken (writeDescription text) :=
  startsToken_append (by decide) (by decide) _

/-- A description is read again up to the dollar signs that end it. -/
lemma description_write {text : List Char} (h : IsDescription text) :
    description (writeDescription text) = some (text, []) := by
  have hread := description_append h.not_infix h.getLast?_ne []
  rwa [List.append_nil] at hread

/-- A file name is read again up to the quote that ends it. -/
lemma fileName_write {name : List Char} (h : IsFileName name) :
    fileName (writeFileName name) = some (name, []) := by
  have hread := fileName_append h.ne_nil h.not_mem []
  rwa [List.append_nil] at hread

/-- No blank stands in front of a file name. -/
lemma startsToken_fileName (name : List Char) : StartsToken (writeFileName name) :=
  startsToken_append (by decide) (by decide) _

/-- No blank stands in front of a list. -/
lemma startsToken_items {α : Type} (write : α → List Char) (l : List α) :
    StartsToken (writeItems write l) := by
  cases l <;> exact startsToken_cons (by decide) (by decide) _

/-- A list of words is read again. -/
lemma words_write {words : List (List Char)} (hne : words ≠ []) (h : ∀ w ∈ words, IsSignedHex w) :
    items signedDigits (writeItems id words) = some (words, []) := by
  apply read_of_append_nil
  refine items_append hne (fun w hw _ hrest => signedDigits_append (h w hw) hrest) ?_ []
  exact fun w hw => startsToken_append (h w hw).ne_nil (startsToken_signedDigits (h w hw))

/-- An instruction is read again, if what stands behind it does not go on with a number. -/
lemma instruction_append {i : List Char × List Char} (h : IsInstruction i) {rest : List Char}
    (hrest : EndsNumber rest) : instruction (writeInstruction i ++ rest) = some (i, rest) := by
  have hcolon : EndsNumber (":".toList ++ (i.2 ++ rest)) := endsNumber_cons (by decide) _
  have hwrite : writeInstruction i ++ rest = i.1 ++ (":".toList ++ (i.2 ++ rest)) := by
    simp only [writeInstruction, List.append_assoc]
  rw [hwrite, instruction, opcodeDigits_append h.opcode h.length_opcode hcolon]
  simp only [Option.bind_eq_bind, Option.bind_some]
  rw [literal_append, Option.bind_some, signedDigits_append h.arg hrest]
  rfl

/-- A list of instructions is read again. -/
lemma instructions_write {instructions : List (List Char × List Char)} (hne : instructions ≠ [])
    (h : ∀ i ∈ instructions, IsInstruction i) :
    items instruction (writeItems writeInstruction instructions) = some (instructions, []) := by
  have hstart : ∀ i ∈ instructions, ∀ rest, StartsToken (writeInstruction i ++ rest) := by
    intro i hi rest
    rw [writeInstruction, List.append_assoc]
    exact startsToken_append (h i hi).opcode.ne_nil (startsToken_digits (h i hi).opcode) _
  apply read_of_append_nil
  exact items_append hne (fun i hi _ hrest => instruction_append (h i hi) hrest) hstart []

/-- A marker is read again behind its first word. -/
lemma markerCommand_body (hgap : IsGap gap) {text : List Char} (h : IsDescription text) :
    markerCommand ((marker text).body gap) = some (marker text, []) := by
  rw [body, markerCommand, skip_append hgap.isGap (startsToken_description text),
    description_write h]
  rfl

/-- A word may be the last of a line. -/
lemma token_last (hgap : IsGap gap) {word : String} (hne : word.toList ≠ [])
    (hword : StartsToken word.toList) : token word (gap ++ word.toList) = some [] := by
  have htoken := token_append hgap.isGap hne hword []
  rwa [List.append_nil] at htoken

/-- So is the command that flushes the memory. -/
lemma memoryCommand_flush (hgap : IsGap gap) :
    memoryCommand (flushMemory.body gap) = some (flushMemory, []) := by
  rw [body, memoryCommand, token_last hgap (by decide) (by decide)]
  rfl

/-- So is the command that loads an image. -/
lemma memoryCommand_load (hgap : IsGap gap) {file : List Char} (h : IsFileName file) :
    memoryCommand ((load file).body gap) = some (load file, []) := by
  rw [body, memoryCommand, token_append_eq_none hgap.isGap (by decide) (by decide) (by decide),
    token_append hgap.isGap (by decide) (by decide)]
  simp only [Option.bind_eq_bind, Option.bind_some]
  rw [skip_append hgap.isGap (startsToken_fileName file), fileName_write h]
  rfl

/-- An address is read behind a gap. -/
lemma cellDigits_skip (hgap : IsGap gap) {address rest : List Char} (h : IsHex address)
    (hrest : EndsNumber rest) :
    cellDigits (skip (gap ++ ("#0x".toList ++ (address ++ rest)))) = some (address, rest) := by
  rw [skip_append hgap.isGap (startsToken_append (by decide) (by decide) _),
    cellDigits_append h hrest]

/-- So is a list of words for the data memory. -/
lemma memoryCommand_writeData (hgap : IsGap gap) {address : List Char} {words : List (List Char)}
    (haddress : IsHex address) (hne : words ≠ []) (hwords : ∀ w ∈ words, IsSignedHex w) :
    memoryCommand ((writeData address words).body gap) = some (writeData address words, []) := by
  rw [body, memoryCommand, token_append_eq_none hgap.isGap (by decide) (by decide) (by decide),
    token_append_eq_none hgap.isGap (by decide) (by decide) (by decide),
    token_append hgap.isGap (by decide) (by decide)]
  simp only [Option.bind_eq_bind, Option.bind_some]
  rw [cellDigits_skip hgap haddress (endsNumber_gap hgap _), Option.bind_some,
    skip_append hgap.isGap (startsToken_items id words), words_write hne hwords]
  rfl

/-- So is a list of instructions for the code memory. -/
lemma codeCommand_body (hgap : IsGap gap) {address : List Char}
    {instructions : List (List Char × List Char)} (haddress : IsHex address)
    (hne : instructions ≠ []) (hinstructions : ∀ i ∈ instructions, IsInstruction i) :
    codeCommand ((writeCode address instructions).body gap) =
      some (writeCode address instructions, []) := by
  rw [body, codeCommand, token_append hgap.isGap (by decide) (by decide)]
  simp only [Option.bind_eq_bind, Option.bind_some]
  rw [cellDigits_skip hgap haddress (endsNumber_gap hgap _), Option.bind_some,
    skip_append hgap.isGap (startsToken_items writeInstruction instructions),
    instructions_write hne hinstructions]
  rfl

/-- So is the command that checks a source file. -/
lemma sourceCommand_body (hgap : IsGap gap) {file : List Char} (h : IsFileName file) :
    sourceCommand ((checkSource file).body gap) = some (checkSource file, []) := by
  rw [body, sourceCommand, token_append hgap.isGap (by decide) (by decide)]
  simp only [Option.bind_eq_bind, Option.bind_some]
  rw [skip_append hgap.isGap (startsToken_fileName file), fileName_write h]
  rfl

/-- So is the command that flushes the registers. -/
lemma registersCommand_flush (hgap : IsGap gap) :
    registersCommand (flushRegisters.body gap) = some (flushRegisters, []) := by
  rw [body, registersCommand, token_last hgap (by decide) (by decide)]
  rfl

/-- So is the value of a register. -/
lemma registersCommand_set (hgap : IsGap gap) (name : RegisterName) {value : List Char}
    (h : IsSignedHex value) :
    registersCommand ((setRegister name value).body gap) = some (setRegister name value, []) := by
  have hvalue := wordDigits_append h endsNumber_nil
  rw [List.append_nil] at hvalue
  have hequals : StartsToken ("=".toList ++ ("0x".toList ++ value)) :=
    startsToken_append (by decide) (by decide) _
  rw [body, registersCommand, token_append_eq_none hgap.isGap (by decide) (by decide) (by decide),
    token_append hgap.isGap (by decide) (by decide)]
  simp only [Option.map_none, Option.none_or, Option.bind_eq_bind, Option.bind_some]
  rw [skip_append hgap.isGap (startsToken_registerName name _), registerName_append,
    Option.bind_some, token, skip_eq_self hequals, literal_append, Option.bind_some,
    skip_eq_self (startsToken_append (by decide) (by decide) _), hvalue]
  rfl

/-- A stop condition is read with blanks around its first word, or without. -/
lemma untilClause_of_condition {c : ConditionText} {gap gap' text rest : List Char} (hgap : Spaces gap)
    (hgap' : Spaces gap') (hstart : StartsToken (text ++ rest))
    (hcondition : condition (text ++ rest) = some (c, rest)) :
    untilClause (gap ++ ("until".toList ++ (gap' ++ (text ++ rest)))) = some (c, rest) := by
  rw [untilClause, token_append hgap (by decide) (by decide)]
  simp only [Option.bind_eq_bind, Option.bind_some]
  rw [skip_append hgap' hstart, hcondition]

/-- A stop condition is read, with a gap in front of it or without. -/
lemma untilClause_append (hgap : IsGap gap) {c : ConditionText} (h : c.WellSpelled)
    {blanks : List Char} (hblanks : Spaces blanks) :
    untilClause (blanks ++ writeUntil gap c) = some (c, []) := by
  have hwrite : blanks ++ writeUntil gap c =
      blanks ++ ("until".toList ++ (gap ++ (c.write gap ++ []))) :=
    congrArg (fun text => blanks ++ ("until".toList ++ (gap ++ text))) (List.append_nil _).symm
  rw [hwrite, untilClause_of_condition hblanks hgap.isGap (startsToken_condition c [])
    (condition_append hgap h endsNumber_nil rfl)]

/-- A run is read again, with an address to start at or without, and with a stop condition or without. -/
lemma runCommand_body (hgap : IsGap gap) {start : Option (List Char)} {stop : Option ConditionText}
    (hstart : ∀ address ∈ start, IsHex address) (hstop : ∀ c ∈ stop, c.WellSpelled) :
    runCommand ((run start stop).body gap) = some (run start stop, []) := by
  cases start with
  | none =>
    cases stop with
    | none => rfl
    | some c =>
      -- The gap is skipped in the search for an address, so the stop condition is found without it.
      have hcell : cellDigits (writeUntil gap c) = none := rfl
      have huntil : untilClause (writeUntil gap c) = some (c, []) :=
        untilClause_append hgap (hstop c rfl) (fun _ hb => absurd hb List.not_mem_nil)
      have hbody : (run none (some c)).body gap = gap ++ writeUntil gap c := rfl
      have hskip : skip (gap ++ writeUntil gap c) = writeUntil gap c :=
        skip_append hgap.isGap (startsToken_append (by decide) (by decide) _)
      rw [hbody, runCommand, hskip]
      simp only [optional, hcell, huntil]
  | some address =>
    have haddress : IsHex address := hstart address rfl
    cases stop with
    | none =>
      have hbody : (run (some address) none).body gap =
          gap ++ ("#0x".toList ++ (address ++ [])) := by simp [body]
      rw [hbody, runCommand]
      simp only [optional, cellDigits_skip hgap haddress endsNumber_nil]
      rfl
    | some c =>
      have hbody : (run (some address) (some c)).body gap =
          gap ++ ("#0x".toList ++ (address ++ (gap ++ writeUntil gap c))) := by simp [body]
      rw [hbody, runCommand]
      simp only [optional, cellDigits_skip hgap haddress (endsNumber_gap hgap _),
        untilClause_append hgap (hstop c rfl) hgap.isGap]

/-- An assertion is read with blanks around its condition, or without. -/
lemma assertCommand_of_condition {c : ConditionText} {gap gap' chain text tail : List Char}
    (hgap : Spaces gap) (hgap' : Spaces gap') (htext : IsDescription text)
    (hstart : StartsToken (chain ++ (gap' ++ ("$$".toList ++ (text ++ ("$$".toList ++ tail))))))
    (hcondition : condition (chain ++ (gap' ++ ("$$".toList ++ (text ++ ("$$".toList ++ tail))))) =
      some (c, gap' ++ ("$$".toList ++ (text ++ ("$$".toList ++ tail))))) :
    assertCommand (gap ++ (chain ++ (gap' ++ ("$$".toList ++ (text ++ ("$$".toList ++ tail)))))) =
      some (claim c text, tail) := by
  rw [assertCommand, skip_append hgap hstart, hcondition]
  simp only [Option.bind_eq_bind, Option.bind_some]
  rw [skip_append hgap' (startsToken_append (by decide) (by decide) _),
    description_append htext.not_infix htext.getLast?_ne]
  rfl

/-- An assertion is read again: its condition, and then its description. -/
lemma assertCommand_body (hgap : IsGap gap) {c : ConditionText} {text : List Char}
    (hc : c.WellSpelled) (htext : IsDescription text) :
    assertCommand ((claim c text).body gap) = some (claim c text, []) := by
  have hread : assertCommand (gap ++ (c.write gap ++ (gap ++ ("$$".toList ++
      (text ++ ("$$".toList ++ [])))))) = some (claim c text, []) :=
    assertCommand_of_condition hgap.isGap hgap.isGap htext (startsToken_condition c _)
      (condition_append hgap hc (endsNumber_gap hgap _) (link_description hgap.isGap _))
  rw [List.append_nil] at hread
  exact hread

/-! ## Lines -/

/-- A command is taken behind its first word. -/
lemma command_append {word : String} {reader : Reader Sentence} (h : (word, reader) ∈ commands)
    {cs : List Char} {result : Sentence × List Char} (hread : reader cs = some result) :
    command (word.toList ++ cs) = some result := by
  have hapart : commands.Pairwise fun a b =>
      ¬ a.1.toList <+: b.1.toList ∧ ¬ b.1.toList <+: a.1.toList := by decide
  obtain ⟨before, behind, hcommands⟩ := List.append_of_mem h
  rw [hcommands, List.pairwise_append] at hapart
  rw [command, List.findSome?_eq_some_iff]
  refine ⟨before, (word, reader), behind, hcommands, ?_, ?_⟩
  · exact (congrArg (·.bind reader) (literal_append word cs)).trans hread
  · intro other hother
    obtain ⟨hnot, hnot'⟩ := hapart.2.2 other hother (word, reader) List.mem_cons_self
    exact congrArg (·.bind other.2) (literal_append_eq_none hnot hnot' cs)

/-- The whole line of a sentence is taken. -/
lemma command_write (hgap : IsGap gap) {s : Sentence} (h : s.WellSpelled) :
    command (s.write gap) = some (s, []) := by
  cases s with
  | marker text => exact command_append (by simp [commands, firstWord]) (markerCommand_body hgap h)
  | flushMemory => exact command_append (by simp [commands, firstWord]) (memoryCommand_flush hgap)
  | load file => exact command_append (by simp [commands, firstWord]) (memoryCommand_load hgap h)
  | writeData address words =>
    exact command_append (by simp [commands, firstWord]) (memoryCommand_writeData hgap h.1 h.2.1 h.2.2)
  | writeCode address instructions =>
    exact command_append (by simp [commands, firstWord]) (codeCommand_body hgap h.1 h.2.1 h.2.2)
  | checkSource file => exact command_append (by simp [commands, firstWord]) (sourceCommand_body hgap h)
  | flushRegisters => exact command_append (by simp [commands, firstWord]) (registersCommand_flush hgap)
  | setRegister name value =>
    exact command_append (by simp [commands, firstWord]) (registersCommand_set hgap name h)
  | run start stop => exact command_append (by simp [commands, firstWord]) (runCommand_body hgap h.1 h.2)
  | claim c text => exact command_append (by simp [commands, firstWord]) (assertCommand_body hgap h.1 h.2)

/-- The first word of a line has no blank in it. -/
lemma firstWord_spec (s : Sentence) :
    s.firstWord.toList ≠ [] ∧ StartsToken s.firstWord.toList ∧
      ∀ c ∈ s.firstWord.toList, Text.isBlank c = false := by
  have hwords : ∀ word ∈ commands.map Prod.fst, word.toList ≠ [] ∧ StartsToken word.toList ∧
      word.toList.all (!Text.isBlank ·) := by decide
  have hmem : s.firstWord ∈ commands.map Prod.fst := by cases s <;> simp [commands, firstWord]
  obtain ⟨hne, hstart, hsolid⟩ := hwords s.firstWord hmem
  exact ⟨hne, hstart, by simpa using hsolid⟩

/-- **A written sentence is read again**, with any gap between its words. -/
theorem read_write (hgap : IsGap gap) {s : Sentence} (h : s.WellSpelled) :
    read (s.write gap) = some (some s) := by
  obtain ⟨hne, hword, -⟩ := s.firstWord_spec
  have hstart : StartsToken (s.write gap) := startsToken_append hne hword _
  rw [read, skip_eq_self hstart]
  simp only [optional, command_write hgap h]
  rfl

/-! ## The ends of a line -/

/-- The last character of a text is there, and is no blank. -/
def EndsSolid (cs : List Char) : Prop := ∃ c ∈ cs.getLast?, Text.isBlank c = false

/-- A text ends as its last part does. -/
lemma endsSolid_append (before : List Char) {cs : List Char} (h : EndsSolid cs) :
    EndsSolid (before ++ cs) := by
  obtain ⟨c, hc, hsolid⟩ := h
  refine ⟨c, ?_, hsolid⟩
  rw [List.getLast?_append, Option.mem_def.1 hc]
  rfl

/-- A text without blanks ends solidly, if there is any text. -/
lemma endsSolid_of_forall {cs : List Char} (hne : cs ≠ [])
    (h : ∀ c ∈ cs, Text.isBlank c = false) : EndsSolid cs :=
  ⟨cs.getLast hne, List.getLast?_eq_getLast_of_ne_nil hne, h _ (List.getLast_mem hne)⟩

/-- The digits of a number end solidly. -/
lemma endsSolid_digits {digits : List Char} (h : IsHex digits) : EndsSolid digits :=
  endsSolid_of_forall h.ne_nil fun c hc => Numeral.isBlank_of_isDigit (h.isDigit c hc)

/-- So does a number with its sign. -/
lemma endsSolid_signedDigits {text : List Char} (h : IsSignedHex text) : EndsSolid text := by
  rcases h with h | ⟨digits, rfl, h⟩
  · exact endsSolid_digits h
  · exact endsSolid_append ['-'] (endsSolid_digits h)

/-- Parts in a row end as the last of them. -/
lemma endsSolid_flatMap {α : Type} {write : α → List Char} {parts : List α}
    (hparts : ∀ a ∈ parts, EndsSolid (write a)) {before : List Char} (hbefore : EndsSolid before) :
    EndsSolid (before ++ parts.flatMap write) := by
  induction parts generalizing before with
  | nil => rwa [List.flatMap_nil, List.append_nil]
  | cons a parts ih =>
    rw [List.flatMap_cons, ← List.append_assoc]
    exact ih (fun b hb => hparts b (List.mem_cons_of_mem _ hb))
      (endsSolid_append before (hparts a List.mem_cons_self))

/-- The last character of a quantity is one of its name, or a digit. -/
lemma endsSolid_quantity {q : QuantityText} (h : q.WellSpelled) : EndsSolid q.write := by
  cases q with
  | register name => cases name <;> exact ⟨_, rfl, by decide⟩
  | cell digits => exact endsSolid_append _ (endsSolid_digits h)
  | word digits => exact endsSolid_append _ (endsSolid_signedDigits h)

/-- The last character of a term is that of its last word or quantity. -/
lemma endsSolid_term {t : TermText} (h : t.WellSpelled) : EndsSolid (t.write gap) := by
  cases t with
  | constant b => cases b <;> exact ⟨_, rfl, by decide⟩
  | halted => exact ⟨_, rfl, by decide⟩
  | compare left c right =>
    iterate 4 apply endsSolid_append
    exact endsSolid_quantity h.2

/-- A condition ends as its last term does. -/
lemma endsSolid_condition {c : ConditionText} (h : c.WellSpelled) : EndsSolid (c.write gap) := by
  refine endsSolid_flatMap (fun l hl => ?_) (endsSolid_term h.first)
  iterate 3 apply endsSolid_append
  exact endsSolid_term (h.rest l hl)

/-- A list ends with its parenthesis. -/
lemma endsSolid_items {α : Type} (write : α → List Char) (l : List α) :
    EndsSolid (writeItems write l) := by
  cases l with
  | nil => exact ⟨')', rfl, by decide⟩
  | cons a l =>
    iterate 3 apply endsSolid_append
    exact ⟨')', rfl, by decide⟩

/-- A file name ends with its quote. -/
lemma endsSolid_fileName (name : List Char) : EndsSolid (writeFileName name) :=
  endsSolid_append _ (endsSolid_append _ ⟨'"', rfl, by decide⟩)

/-- A description ends with its dollar sign. -/
lemma endsSolid_description (text : List Char) : EndsSolid (writeDescription text) :=
  endsSolid_append _ (endsSolid_append _ ⟨'$', rfl, by decide⟩)

/-- The last part of a line is a word, a number, or a mark that ends a text or a list. -/
lemma endsSolid_write {s : Sentence} (h : s.WellSpelled) : EndsSolid (s.write gap) := by
  cases s with
  | marker text =>
    iterate 2 apply endsSolid_append
    exact endsSolid_description text
  | flushMemory | flushRegisters =>
    iterate 2 apply endsSolid_append
    exact ⟨'h', rfl, by decide⟩
  | load file | checkSource file =>
    iterate 4 apply endsSolid_append
    exact endsSolid_fileName file
  | writeData address words =>
    iterate 7 apply endsSolid_append
    exact endsSolid_items id words
  | writeCode address instructions =>
    iterate 7 apply endsSolid_append
    exact endsSolid_items writeInstruction instructions
  | setRegister name value =>
    iterate 7 apply endsSolid_append
    exact endsSolid_signedDigits h
  | run start stop =>
    cases stop with
    | some c =>
      iterate 5 apply endsSolid_append
      exact endsSolid_condition (h.2 c rfl)
    | none =>
      rw [write, body, Option.elim_none, List.append_nil]
      cases start with
      | none => exact ⟨'n', rfl, by decide⟩
      | some address =>
        iterate 3 apply endsSolid_append
        exact endsSolid_digits (h.1 address rfl)
  | claim c text =>
    iterate 4 apply endsSolid_append
    exact endsSolid_description text

/-- There are no blanks around a written sentence. -/
lemma trim_write {s : Sentence} (h : s.WellSpelled) : Text.trim (s.write gap) = s.write gap := by
  obtain ⟨hne, -, hword⟩ := s.firstWord_spec
  obtain ⟨last, hlast, hsolid⟩ : EndsSolid (s.write gap) := endsSolid_write h
  apply Text.trim_eq_self
  · intro c hc
    rw [write, List.head?_append_of_ne_nil _ hne] at hc
    exact hword c (List.mem_of_mem_head? hc)
  · intro c hc
    obtain rfl := Option.mem_unique hlast hc
    exact hsolid

end Sentence

end Script

end AccumulatorMachine

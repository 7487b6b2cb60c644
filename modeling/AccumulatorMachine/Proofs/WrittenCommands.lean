import AccumulatorMachine.Proofs.WrittenSentences
import AccumulatorMachine.Script.Command

/-!
# Written commands

Whatever a script can say can be written down and is read as it was meant. A command is written in a
style: what sets its words apart, how many digits its numbers have and in which letter case, and whether
a run says that it never stops early. A word is written as a signed number, not by its bit pattern.

The text is read in two passes, and so the proof has two parts. The sentence of a command is spelled
well, so it is read again from its line; and each of its numbers spells what it stands for, so the
command is read again from its sentence.

## Main definitions

* `Command.IsWritable` — a command that a script can hold.
* `Style`, `Style.plain` — ways to write a command.
* `Style.sentence`, `Style.line` — a command in a style, as a sentence and as a line.

## Main results

* `Condition.join_links` — a condition is the chain of its terms.
* `Style.wellSpelled_sentence`, `Style.toCommand_sentence` — the two parts of the proof.
* `Style.ofLine_line` — a written command is read as it was meant.
-/

set_option autoImplicit false

namespace AccumulatorMachine

namespace Condition

/-- The term that a chain starts with. -/
def first : Condition → Term
  | term t => t
  | and c _ | or c _ => c.first

/-- The further terms of a chain, each with what joins it to those before. -/
def links : Condition → List (Connective × Term)
  | term _ => []
  | and c t => c.links ++ [(.and, t)]
  | or c t => c.links ++ [(.or, t)]

/-- A condition is the chain of its terms. -/
lemma join_links (c : Condition) : join c.first c.links = c := by
  induction c with
  | term t => rfl
  | and c t ih | or c t ih =>
    rw [first, links, join_append, ih]
    rfl

end Condition

/-! ## What can be written -/

/-- An address has 64 bits at most. A word and the name of a register can always be written. -/
def Quantity.IsWritable : Quantity → Prop
  | cell address => address < 2 ^ 64
  | register _ | word _ => True

/-- What a term compares can be written. -/
def Term.IsWritable : Term → Prop
  | compare left _ right => left.IsWritable ∧ right.IsWritable
  | constant _ | halted => True

/-- Every term of the chain can be written. -/
def Condition.IsWritable : Condition → Prop
  | term t => t.IsWritable
  | and c t | or c t => c.IsWritable ∧ t.IsWritable

namespace Condition

variable {c : Condition}

/-- The first term of a chain that can be written can be written. -/
lemma isWritable_first (h : c.IsWritable) : c.first.IsWritable := by
  induction c with
  | term t => exact h
  | and c t ih | or c t ih => exact ih h.1

/-- So can every further term. -/
lemma isWritable_links (h : c.IsWritable) : ∀ l ∈ c.links, l.2.IsWritable := by
  induction c with
  | term t => exact fun _ hl => absurd hl List.not_mem_nil
  | and c t ih | or c t ih =>
    intro l hl
    rcases List.mem_append.1 hl with hl | hl
    · exact ih h.1 l hl
    · obtain rfl := List.mem_singleton.1 hl
      exact h.2

end Condition

namespace Script

/-- A script can hold the command: its addresses have 64 bits, its lists are not empty, and its texts do
not hold the marks that end them. -/
def Command.IsWritable : Command → Prop
  | marker description => IsDescription description.toList
  | flushMemory | flushRegisters | setRegister _ _ => True
  | load file | checkSource file => IsFileName file.toList
  | writeData address words => address < 2 ^ 64 ∧ words ≠ []
  | writeCode address instructions => address < 2 ^ 64 ∧ instructions ≠ []
  | run start stop => (∀ address ∈ start, 0 ≤ address.toInt) ∧ stop.IsWritable
  | claim condition description => condition.IsWritable ∧ IsDescription description.toList

/-! ## Styles -/

/-- A way to write commands. -/
structure Style where
  /-- What sets two words apart. -/
  gap : List Char
  isGap_gap : IsGap gap
  /-- The digits of an address. -/
  address : Nat → List Char
  spells_address : ∀ n, Numeral.SpellsNat (address n) n
  /-- The digits of a word without its sign. -/
  magnitude : Nat → List Char
  spells_magnitude : ∀ n, Numeral.SpellsNat (magnitude n) n
  /-- The digits of an opcode. -/
  opcode : UInt8 → List Char
  spells_opcode : ∀ b, Numeral.SpellsNat (opcode b) b.toNat
  length_opcode : ∀ b, (opcode b).length ≤ 2
  /-- A run that never stops early says so. -/
  saysNever : Bool

/-- A byte has two digits at most. -/
lemma length_lowerHex_two_le {n : Nat} (h : n < 256) : (Numeral.lowerHex 2 n).toList.length ≤ 2 := by
  have hdigits : (Numeral.digits 16 n).length ≤ 2 := by
    rw [Numeral.digits]
    split
    · simp
    · have hsmall : n / 16 < 16 := by omega
      rw [Numeral.digits, dif_pos (Or.inr hsmall)]
      simp
  rw [Numeral.lowerHex, String.toList_ofList, List.leftpad, List.length_append, List.length_map,
    List.length_replicate]
  omega

/-- One blank between words, and no more digits than needed, but two for an opcode. Only addresses are
written in capitals. -/
def Style.plain : Style where
  gap := [' ']
  isGap_gap := ⟨by simp, by simp [isGap]⟩
  address n := (Numeral.upperHex 1 n).toList
  spells_address := Numeral.spellsNat_upperHex 1
  magnitude n := (Numeral.lowerHex 1 n).toList
  spells_magnitude := Numeral.spellsNat_lowerHex 1
  opcode b := (Numeral.lowerHex 2 b.toNat).toList
  spells_opcode b := Numeral.spellsNat_lowerHex 2 b.toNat
  length_opcode b := length_lowerHex_two_le b.toNat_lt
  saysNever := false

namespace Style

variable (style : Style)

/-- A word with its sign. -/
def word (w : Int32) : List Char :=
  (if w.toInt < 0 then ['-'] else []) ++ style.magnitude w.toInt.natAbs

/-- The digits of an opcode and a word with its sign. -/
def instruction (i : Instruction) : List Char × List Char :=
  (style.opcode i.opcode, style.word i.arg)

/-- What is compared: a name, the digits of an address, or a word with its sign. -/
def quantity : Quantity → QuantityText
  | .register name => .register name
  | .cell address => .cell (style.address address)
  | .word value => .word (style.word value)

/-- A term with its numbers in the style. -/
def term : Term → TermText
  | .constant b => .constant b
  | .halted => .halted
  | .compare left c right => .compare (style.quantity left) c (style.quantity right)

/-- A chain, term by term. -/
def condition (c : Condition) : ConditionText where
  first := style.term c.first
  rest := c.links.map fun (join, t) => (join, style.term t)

/-- The stop condition of a run, unless it goes without saying. -/
def stop (c : Condition) : Option ConditionText :=
  if c = neverStop ∧ style.saysNever = false then none else some (style.condition c)

/-- The sentence of a command. -/
def sentence : Command → Sentence
  | .marker description => .marker description.toList
  | .flushMemory => .flushMemory
  | .load file => .load file.toList
  | .writeData address words => .writeData (style.address address) (words.map style.word)
  | .writeCode address instructions =>
    .writeCode (style.address address) (instructions.map style.instruction)
  | .checkSource file => .checkSource file.toList
  | .flushRegisters => .flushRegisters
  | .setRegister name value => .setRegister name (style.word value)
  | .run start stop =>
    .run (start.map fun address => style.address address.toInt.toNat) (style.stop stop)
  | .claim condition description => .claim (style.condition condition) description.toList

/-- The line of a command. -/
def line (c : Command) : List Char := (style.sentence c).write style.gap

/-! ## The sentence of a command is spelled well -/

/-- A word is written with digits, and with a sign if it is negative. -/
lemma isSignedHex_word (w : Int32) : IsSignedHex (style.word w) := by
  have hmagnitude := isHex_of_spellsNat (style.spells_magnitude w.toInt.natAbs)
  rw [word]
  split
  · exact Or.inr ⟨_, rfl, hmagnitude⟩
  · exact Or.inl hmagnitude

/-- The numbers that a comparison names have digits. -/
lemma wellSpelled_quantity (q : Quantity) : (style.quantity q).WellSpelled := by
  cases q with
  | register name => trivial
  | cell address => exact isHex_of_spellsNat (style.spells_address address)
  | word value => exact style.isSignedHex_word value

/-- So have those of a term. -/
lemma wellSpelled_term (t : Term) : (style.term t).WellSpelled := by
  cases t with
  | constant b | halted => trivial
  | compare left c right =>
    exact ⟨style.wellSpelled_quantity left, style.wellSpelled_quantity right⟩

/-- So have those of a whole chain. -/
lemma wellSpelled_condition (c : Condition) : (style.condition c).WellSpelled where
  first := style.wellSpelled_term c.first
  rest := by
    intro l hl
    obtain ⟨⟨join, t⟩, -, rfl⟩ := List.mem_map.1 hl
    exact style.wellSpelled_term t

/-- An instruction is written with an opcode of at most two digits. -/
lemma isInstruction_instruction (i : Instruction) : IsInstruction (style.instruction i) where
  opcode := isHex_of_spellsNat (style.spells_opcode i.opcode)
  length_opcode := style.length_opcode i.opcode
  arg := style.isSignedHex_word i.arg

variable {style}

/-- The sentence of a command can be written, if the command can. -/
lemma wellSpelled_sentence {c : Command} (h : c.IsWritable) : (style.sentence c).WellSpelled := by
  cases c with
  | marker description => exact h
  | flushMemory | flushRegisters => trivial
  | load file | checkSource file => exact h
  | writeData address words =>
    refine ⟨isHex_of_spellsNat (style.spells_address address), by simpa using h.2, ?_⟩
    intro text htext
    obtain ⟨w, -, rfl⟩ := List.mem_map.1 htext
    exact style.isSignedHex_word w
  | writeCode address instructions =>
    refine ⟨isHex_of_spellsNat (style.spells_address address), by simpa using h.2, ?_⟩
    intro spelled hspelled
    obtain ⟨i, -, rfl⟩ := List.mem_map.1 hspelled
    exact style.isInstruction_instruction i
  | setRegister name value => exact style.isSignedHex_word value
  | run start stop =>
    constructor
    · intro digits hdigits
      obtain ⟨address, -, rfl⟩ := Option.mem_map.1 hdigits
      exact isHex_of_spellsNat (style.spells_address address.toInt.toNat)
    · intro spelled hspelled
      rw [Style.stop] at hspelled
      split at hspelled
      · cases hspelled
      · cases hspelled
        exact style.wellSpelled_condition stop
  | claim condition description => exact ⟨style.wellSpelled_condition condition, h.2⟩

/-! ## The numbers of a sentence are read as they were meant -/

/-- An address of 64 bits is read again. -/
lemma readAddress_address {n : Nat} (h : n < 2 ^ 64) : readAddress (style.address n) = .ok n :=
  readAddress_of_spellsNat (style.spells_address n) (Nat.le_of_lt_succ h)

/-- A word is read again. The least one has a magnitude that is no word itself. -/
lemma read_word (w : Int32) : Word.read (style.word w) = .ok w := by
  apply Word.read_of_spells
  have hmagnitude := style.spells_magnitude w.toInt.natAbs
  rw [word]
  split
  · exact ⟨['-'], _, _, rfl, hmagnitude, Or.inr ⟨rfl, by omega⟩⟩
  · exact ⟨[], _, _, rfl, hmagnitude, Or.inl ⟨Or.inl rfl, by omega⟩⟩

/-- An instruction is read again. -/
lemma readInstruction_instruction (i : Instruction) :
    readInstruction (style.instruction i) = .ok i := by
  have hopcode : readOpcode (style.opcode i.opcode) = .ok i.opcode := by
    have hlt := i.opcode.toNat_lt
    rw [readOpcode_of_spellsNat (style.spells_opcode i.opcode) (by omega), UInt8.ofNat_toNat]
  rw [instruction, readInstruction]
  simp only [hopcode, read_word]
  rfl

/-- The address that a run starts at is read again, if it is not negative. -/
lemma readStart_address {address : Int32} (h : 0 ≤ address.toInt) :
    readStart (style.address address.toInt.toNat) = .ok address := by
  have hlt := address.toInt_lt
  have hword : Int32.ofNat address.toInt.toNat = address := by
    rw [← Int32.toInt_inj, Int32.toInt_ofNat_of_lt (by omega), Int.toNat_of_nonneg h]
  rw [readStart, readAddress_address (by omega)]
  show (if address.toInt.toNat < Word.limit then _ else _) = _
  rw [if_pos (by rw [Word.limit]; omega), hword]

/-- What is compared is read again. -/
lemma toQuantity_quantity {q : Quantity} (h : q.IsWritable) :
    (style.quantity q).toQuantity = .ok q := by
  cases q with
  | register name => rfl
  | cell address =>
    rw [quantity, QuantityText.toQuantity, readAddress_address h]
    rfl
  | word value =>
    rw [quantity, QuantityText.toQuantity, read_word]
    rfl

/-- A term is read again. -/
lemma toTerm_term {t : Term} (h : t.IsWritable) : (style.term t).toTerm = .ok t := by
  cases t with
  | constant b | halted => rfl
  | compare left c right =>
    rw [term, TermText.toTerm, toQuantity_quantity h.1, toQuantity_quantity h.2]
    rfl

/-- Items are read one by one, so a list is read again if its items are. -/
lemma mapM_map {α β : Type} {read : β → Except NumberError α} {write : α → β} {l : List α}
    (h : ∀ a ∈ l, read (write a) = .ok a) : (l.map write).mapM read = .ok l := by
  induction l with
  | nil => rfl
  | cons a l ih =>
    rw [List.map_cons, List.mapM_cons, h a List.mem_cons_self,
      ih fun b hb => h b (List.mem_cons_of_mem _ hb)]
    rfl

/-- A chain is read again: its first term, and then the others with what joins them. -/
lemma toCondition_condition {c : Condition} (h : c.IsWritable) :
    (style.condition c).toCondition = .ok c := by
  have hlinks : linksToTerms (style.condition c).rest = .ok c.links := by
    apply mapM_map
    rintro ⟨join, t⟩ hl
    exact congrArg (Except.map (join, ·)) (toTerm_term (Condition.isWritable_links h _ hl))
  rw [ConditionText.toCondition, condition, toTerm_term (Condition.isWritable_first h)]
  simp only [condition] at hlinks
  rw [hlinks]
  exact congrArg Except.ok c.join_links

/-- A run that starts where the machine stands has no address to read, and the others have one. -/
lemma readOptional_start {start : Option Int32} (h : ∀ address ∈ start, 0 ≤ address.toInt) :
    readOptional readStart (start.map fun address => style.address address.toInt.toNat) =
      .ok start := by
  cases start with
  | none => rfl
  | some address =>
    rw [Option.map_some, readOptional, readStart_address (h address rfl)]
    rfl

variable (style) in
/-- A stop condition is read again, or is the one that goes without saying. -/
lemma readOptional_stop {c : Condition} (h : c.IsWritable) :
    ∃ read, readOptional ConditionText.toCondition (style.stop c) = .ok read ∧
      read.getD neverStop = c := by
  rw [stop]
  split
  · rename_i hnever
    exact ⟨none, rfl, hnever.1.symm⟩
  · refine ⟨some c, ?_, rfl⟩
    rw [readOptional, toCondition_condition h]
    rfl

/-- A command is read again from its sentence. -/
lemma toCommand_sentence {c : Command} (h : c.IsWritable) :
    (style.sentence c).toCommand = .ok c := by
  cases c with
  | marker description => simp [sentence, Sentence.toCommand]
  | flushMemory | flushRegisters => rfl
  | load file | checkSource file => simp [sentence, Sentence.toCommand]
  | writeData address words =>
    rw [sentence, Sentence.toCommand, readAddress_address h.1, mapM_map fun w _ => read_word w]
    rfl
  | writeCode address instructions =>
    rw [sentence, Sentence.toCommand, readAddress_address h.1,
      mapM_map fun i _ => readInstruction_instruction i]
    rfl
  | setRegister name value =>
    rw [sentence, Sentence.toCommand, read_word]
    rfl
  | run start stop =>
    obtain ⟨condition, hcondition, hstop⟩ := style.readOptional_stop h.2
    rw [sentence, Sentence.toCommand, readOptional_start h.1, hcondition]
    exact congrArg (fun c => Except.ok (Command.run start c)) hstop
  | claim condition description =>
    rw [sentence, Sentence.toCommand, toCondition_condition h.1, String.ofList_toList]
    rfl

/-- **A written command is read as it was meant**, in whatever style it is written. -/
theorem ofLine_line (style : Style) {c : Command} (h : c.IsWritable) :
    Command.ofLine (style.line c) = .ok (some c) := by
  have hspelled : (style.sentence c).WellSpelled := wellSpelled_sentence h
  rw [Command.ofLine, line, Sentence.trim_write hspelled,
    Sentence.read_write style.isGap_gap hspelled]
  simp only [toCommand_sentence h]
  rfl

/-- A least word, a greatest address, and a description with a comment, a quote and a dollar sign. -/
theorem ofLine_line_claim :
    ∃ c : Command, c.IsWritable ∧
      plain.line c =
        "assert A >= 0x-80000000 AND halted OR #0xFFFFFFFFFFFFFFFF != PC $$// a \" $1$$".toList ∧
      Command.ofLine (plain.line c) = .ok (some c) := by
  let least : Term := .compare (.register .accumulator) .atLeast (.word (-0x80000000))
  let greatest : Term := .compare (.cell 0xffffffffffffffff) .different (.register .counter)
  let c : Command := .claim (.or (.and (.term least) .halted) greatest) "// a \" $1"
  have hgreatest : greatest.IsWritable := ⟨(by decide : 0xffffffffffffffff < 2 ^ 64), trivial⟩
  have hwritable : c.IsWritable :=
    ⟨⟨⟨⟨trivial, trivial⟩, trivial⟩, hgreatest⟩, by decide, by decide⟩
  exact ⟨c, hwritable, by decide +kernel, ofLine_line plain hwritable⟩

example : plain.line (.run (some 0x1a) neverStop) = "run #0x1A".toList := by decide +kernel

example : plain.line (.writeCode 0xa [⟨0x1b, -1⟩, ⟨0x10, 0⟩]) =
    "code write #0xA 0x(1b:-1,10:0)".toList := by decide +kernel

end Style

end Script

end AccumulatorMachine

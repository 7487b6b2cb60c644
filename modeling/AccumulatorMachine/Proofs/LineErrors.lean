import AccumulatorMachine.Proofs.NumberErrors
import AccumulatorMachine.Proofs.ObservingLines
import AccumulatorMachine.Proofs.TreeWalk

/-!
# The ways in which a line fails

A line fails in two ways only. It does not match the grammar, or it matches and some number that stands
in it is out of range; then the leftmost such number is told, and why. What a number may be depends on
where it stands: words may be given signed or by their bits, addresses have 64 bits, and a run starts at
an address that is a word.

## Main definitions

* `Script.NumberKind`, `Script.SpelledNumber` — what a number is, and a number as it stands in a line.
* `Script.SpelledNumber.InRange`, `Script.SpelledNumber.refusal` — whether a number is in range, and what
  is told about it if it is not.
* `Script.Grammar.numbersOfNodes` — the numbers of a tree, from left to right.

## Main results

* `Script.errorOf_toCommand` — a sentence fails as the first of its numbers that fails.
* `Script.SpelledNumber.failure_eq` — a number fails exactly when it is out of range.
* `Script.line_outcomes` — when a line fails, and how.
-/

set_option autoImplicit false

namespace AccumulatorMachine.Script

/-! ## Numbers in a line -/

/-- What a number of a line is. -/
inductive NumberKind where
  /-- A word, or a value to compare with. -/
  | word
  /-- The address of a cell or a slot. -/
  | address
  /-- The address at which a run starts. -/
  | start
  /-- An opcode. -/
  | opcode
deriving DecidableEq

namespace NumberKind

/-- The least number of a kind. -/
def least : NumberKind → Int
  | word => -2 ^ 31
  | address | start | opcode => 0

/-- The first number beyond a kind. -/
def bound : NumberKind → Int
  | word => 2 ^ 32
  | address => 2 ^ 64
  | start => 2 ^ 31
  | opcode => 2 ^ 8

/-- A number of a kind may have a value. -/
def Admits (k : NumberKind) (v : Int) : Prop := k.least ≤ v ∧ v < k.bound

/-- Two comparisons decide whether a value is admitted. -/
instance (k : NumberKind) (v : Int) : Decidable (k.Admits v) := inferInstanceAs (Decidable (_ ∧ _))

end NumberKind

/-- A number as it stands in a line. -/
structure SpelledNumber where
  /-- What the number is. -/
  kind : NumberKind
  /-- Its digits, perhaps behind a minus sign. -/
  digits : List Char
deriving DecidableEq

namespace SpelledNumber

/-- The digits spell a number that is admitted. -/
def InRange (n : SpelledNumber) : Prop := ∃ v, Numeral.Spells n.digits v ∧ n.kind.Admits v

/-- What is told about a number of a value that is not admitted. -/
def refusal (n : SpelledNumber) (v : Int) : NumberError :=
  match n.kind with
  | .word =>
    if v < -2 ^ 63 then .word n.digits .tooSmall
    else if 2 ^ 63 ≤ v then .word n.digits .tooLarge
    else .wide n.digits
  | .address => .address n.digits .tooLarge
  | .start => if v < 2 ^ 64 then .start v.toNat else .address n.digits .tooLarge
  | .opcode => .opcode n.digits .tooLarge

/-- The number is spelled as numbers of its kind are in a line. -/
def WellSpelled (n : SpelledNumber) : Prop :=
  match n.kind with
  | .word => IsSignedHex n.digits
  | .address | .start => IsHex n.digits
  | .opcode => IsHex n.digits ∧ n.digits.length ≤ 2

end SpelledNumber

namespace Grammar

mutual

/-- The numbers of a node, from left to right. An address right inside a run is a start. -/
def numbersOfNode (inRun : Bool) : Node → List SpelledNumber
  | .mk rule text children =>
    match rule with
    | .memoryAddress => [⟨if inRun then .start else .address, text.drop 3⟩]
    | .value => [⟨.word, text.drop 2⟩]
    | .word => [⟨.word, text⟩]
    | .opcode => [⟨.opcode, text⟩]
    | rule => numbersOfNodes (rule = .runInstruction) children

/-- The numbers of some nodes, from left to right. -/
def numbersOfNodes (inRun : Bool) : List Node → List SpelledNumber
  | [] => []
  | n :: rest => numbersOfNode inRun n ++ numbersOfNodes inRun rest

end

end Grammar

/-! ## The numbers of a sentence -/

/-- The numbers of a quantity. A register has none. -/
def QuantityText.numbers : QuantityText → List SpelledNumber
  | register _ => []
  | cell digits => [⟨.address, digits⟩]
  | word digits => [⟨.word, digits⟩]

/-- The numbers of a term, those of its left side first. -/
def TermText.numbers : TermText → List SpelledNumber
  | constant _ | halted => []
  | compare left _ right => left.numbers ++ right.numbers

/-- The numbers of a chain of terms, from left to right. -/
def ConditionText.numbers (c : ConditionText) : List SpelledNumber :=
  c.first.numbers ++ c.rest.flatMap fun l => l.2.numbers

/-- The numbers of an instruction. -/
def instructionNumbers (i : List Char × List Char) : List SpelledNumber :=
  [⟨.opcode, i.1⟩, ⟨.word, i.2⟩]

/-- The numbers of a sentence, from left to right. -/
def Sentence.numbers : Sentence → List SpelledNumber
  | marker _ | flushMemory | load _ | checkSource _ | flushRegisters => []
  | writeData address words => ⟨.address, address⟩ :: words.map (⟨.word, ·⟩)
  | writeCode address instructions => ⟨.address, address⟩ :: instructions.flatMap instructionNumbers
  | setRegister _ value => [⟨.word, value⟩]
  | run start stop => start.toList.map (⟨.start, ·⟩) ++ stop.elim [] ConditionText.numbers
  | claim condition _ => condition.numbers

section WellSpelled

/-- The number of a well spelled quantity is well spelled. -/
lemma QuantityText.wellSpelled_numbers {q : QuantityText} (h : q.WellSpelled) :
    ∀ n ∈ q.numbers, n.WellSpelled := by
  cases q with
  | register name => exact fun n hn => absurd hn List.not_mem_nil
  | cell digits => exact List.forall_mem_singleton.2 h
  | word digits => exact List.forall_mem_singleton.2 h

/-- So are those of a term. -/
lemma TermText.wellSpelled_numbers {t : TermText} (h : t.WellSpelled) :
    ∀ n ∈ t.numbers, n.WellSpelled := by
  cases t with
  | constant b => exact fun n hn => absurd hn List.not_mem_nil
  | halted => exact fun n hn => absurd hn List.not_mem_nil
  | compare left c right =>
    exact List.forall_mem_append.2
      ⟨QuantityText.wellSpelled_numbers h.1, QuantityText.wellSpelled_numbers h.2⟩

/-- So are those of a chain of terms. -/
lemma ConditionText.wellSpelled_numbers {c : ConditionText} (h : c.WellSpelled) :
    ∀ n ∈ c.numbers, n.WellSpelled := by
  refine List.forall_mem_append.2 ⟨TermText.wellSpelled_numbers h.first, fun n hn => ?_⟩
  obtain ⟨l, hl, hn⟩ := List.mem_flatMap.1 hn
  exact TermText.wellSpelled_numbers (h.rest l hl) n hn

/-- The numbers of a sentence are spelled as numbers of their kinds are, if all of the sentence is. -/
lemma Sentence.wellSpelled_numbers {s : Sentence} (h : s.WellSpelled) :
    ∀ n ∈ s.numbers, n.WellSpelled := by
  cases s with
  | marker _ | flushMemory | load _ | checkSource _ | flushRegisters =>
    exact fun n hn => absurd hn List.not_mem_nil
  | writeData address words =>
    obtain ⟨haddress, -, hwords⟩ := h
    refine List.forall_mem_cons.2 ⟨haddress, fun n hn => ?_⟩
    obtain ⟨w, hw, rfl⟩ := List.mem_map.1 hn
    exact hwords w hw
  | writeCode address instructions =>
    obtain ⟨haddress, -, hinstructions⟩ := h
    refine List.forall_mem_cons.2 ⟨haddress, fun n hn => ?_⟩
    obtain ⟨i, hi, hn⟩ := List.mem_flatMap.1 hn
    obtain ⟨hopcode, hlength, harg⟩ := hinstructions i hi
    rcases List.mem_pair.1 hn with rfl | rfl
    · exact ⟨hopcode, hlength⟩
    · exact harg
  | setRegister name value => exact List.forall_mem_singleton.2 h
  | run start stop =>
    refine List.forall_mem_append.2 ⟨fun n hn => ?_, ?_⟩
    · obtain ⟨address, haddress, rfl⟩ := List.mem_map.1 hn
      exact h.1 address (Option.mem_toList.1 haddress)
    · cases stop with
      | none => exact fun n hn => absurd hn List.not_mem_nil
      | some c => exact ConditionText.wellSpelled_numbers (h.2 c rfl)
  | claim c text => exact ConditionText.wellSpelled_numbers h.1

end WellSpelled

namespace Grammar

/-! ## The numbers of a tree -/

/-- The numbers of nodes side by side are told one after the other. -/
lemma numbersOfNodes_append (inRun : Bool) (nodes more : List Node) :
    numbersOfNodes inRun (nodes ++ more) = numbersOfNodes inRun nodes ++ numbersOfNodes inRun more := by
  induction nodes with
  | nil => rfl
  | cons n nodes ih => rw [List.cons_append, numbersOfNodes, numbersOfNodes, ih, List.append_assoc]

/-- So are those of nodes that are all made in the same way. -/
lemma numbersOfNodes_map {α : Type} (inRun : Bool) (node : α → Node) (l : List α) :
    numbersOfNodes inRun (l.map node) = l.flatMap fun a => numbersOfNode inRun (node a) := by
  induction l with
  | nil => rfl
  | cons a l ih => rw [List.map_cons, numbersOfNodes, ih, List.flatMap_cons]

/-- The node of a quantity has the numbers of the quantity. -/
lemma numbersOfNode_quantityNode (q : QuantityText) :
    numbersOfNode false (quantityNode q) = q.numbers := by
  cases q <;> rfl

/-- A node that shows a term has the numbers of the term. -/
lemma numbersOfNode_term {t : TermText} {n : Node} (h : ShowsTerm t n) :
    numbersOfNode false n = t.numbers := by
  cases h with
  | constant b => rfl
  | halted => rfl
  | compare left c right text =>
    show numbersOfNodes false [quantityNode left, signNode c, quantityNode right] = _
    simp only [numbersOfNodes, numbersOfNode_quantityNode, List.append_nil]
    rfl

/-- A node that shows a chain of terms has the numbers of the chain. -/
lemma numbersOfNode_condition {c : ConditionText} {n : Node} (h : ShowsCondition c n) :
    numbersOfNode false n = c.numbers := by
  obtain ⟨first, rest⟩ := c
  cases h with
  | @mk text _ n found hfirst hrest =>
    have hlinks : numbersOfNodes false found.flatten = rest.flatMap fun l => l.2.numbers := by
      replace hrest : List.Forall₂ ShowsLink rest found := hrest
      clear hfirst
      induction hrest with
      | nil => rfl
      | @cons l nodes links found hl _ ih =>
        obtain ⟨n, rfl, ht⟩ := hl
        have hl : numbersOfNodes false [joinNode l.1, n] = l.2.numbers := by
          rw [← numbersOfNode_term ht]
          exact List.append_nil _
        rw [List.flatten_cons, numbersOfNodes_append, ih, hl, List.flatMap_cons]
    show numbersOfNodes false (n :: found.flatten) = _
    rw [numbersOfNodes, numbersOfNode_term hfirst, hlinks]
    rfl

/-- A node that shows a sentence has its numbers, in the same order and each of its kind. -/
lemma numbersOfNode_sentence {s : Sentence} {n : Node} (h : ShowsSentence s n) :
    numbersOfNode false n = s.numbers := by
  cases h with
  | marker outer text => rfl
  | flushMemory outer => rfl
  | load outer inner file => rfl
  | writeData outer inner list address words =>
    show _ :: ((numbersOfNodes false (words.map wordNode) ++ []) ++ []) = _
    rw [numbersOfNodes_map, List.append_nil, List.append_nil, Sentence.numbers, List.map_eq_flatMap]
    rfl
  | writeCode outer inner list address instructions =>
    show _ :: ((numbersOfNodes false (instructions.map instructionNode) ++ []) ++ []) = _
    rw [numbersOfNodes_map, List.append_nil, List.append_nil]
    rfl
  | checkSource outer file => rfl
  | flushRegisters outer => rfl
  | setRegister outer inner name value => rfl
  | run outer start hstop =>
    show numbersOfNodes true _ = _
    rw [numbersOfNodes_append]
    refine congrArg₂ (· ++ ·) ?_ ?_
    · cases start <;> rfl
    · cases hstop with
      | none => rfl
      | some text hcondition =>
        show (numbersOfNode false _ ++ []) ++ [] = _
        rw [numbersOfNode_condition hcondition, List.append_nil, List.append_nil]
        rfl
  | claim outer text hcondition =>
    show numbersOfNodes false [_, descriptionNode text] = _
    rw [numbersOfNodes, numbersOfNode_condition hcondition]
    exact List.append_nil _

end Grammar

/-! ## The first number that fails -/

/-- The error of a result. -/
def errorOf {ε α : Type} : Except ε α → Option ε
  | .ok _ => none
  | .error e => some e

section Failure

variable {ε α β : Type}

/-- Nothing goes wrong exactly if there is a result. -/
lemma errorOf_eq_none_iff {x : Except ε α} : errorOf x = none ↔ ∃ a, x = .ok a := by
  cases x <;> simp [errorOf]

/-- What goes wrong is the error. -/
lemma errorOf_eq_some_iff {x : Except ε α} {e : ε} : errorOf x = some e ↔ x = .error e := by
  cases x <;> simp [errorOf]

/-- Whatever is made of a result, it goes wrong as before. -/
lemma errorOf_map (x : Except ε α) (f : α → β) : errorOf (x.map f) = errorOf x := by
  cases x <;> rfl

/-- The errors of a result come before those of what is done with it. -/
lemma errorOf_bind {x : Except ε α} {next : α → Except ε β} {e : Option ε}
    (h : ∀ a, errorOf (next a) = e) : errorOf (x >>= next) = (errorOf x).or e := by
  cases x with
  | error _ => rfl
  | ok a => exact h a

/-- What is refused under a condition goes wrong unless it holds. -/
lemma errorOf_ite {c : Prop} [Decidable c] (a : α) (e : ε) :
    errorOf (if c then .ok a else .error e) = if c then none else some e := by
  split <;> rfl

/-- A second step that always succeeds does not go wrong. -/
lemma errorOf_bind_ok (x : Except ε α) (f : α → β) :
    errorOf (x >>= fun a => .ok (f a)) = errorOf x := by
  cases x <;> rfl

end Failure

/-- Why a number is refused, if it is. -/
def SpelledNumber.failure (n : SpelledNumber) : Option NumberError :=
  match n.kind with
  | .word => errorOf (Word.read n.digits)
  | .address => errorOf (readAddress n.digits)
  | .start => errorOf (readStart n.digits)
  | .opcode => errorOf (readOpcode n.digits)

section Sentence

/-- A list of parts fails as the first of their numbers that fails. -/
lemma errorOf_mapM {α β : Type} {read : α → Except NumberError β} {numbers : α → List SpelledNumber}
    (h : ∀ a, errorOf (read a) = (numbers a).findSome? SpelledNumber.failure) (l : List α) :
    errorOf (l.mapM read) = (l.flatMap numbers).findSome? SpelledNumber.failure := by
  induction l with
  | nil => rfl
  | cons a l ih =>
    have hrest : ∀ b, errorOf (l.mapM read >>= fun bs => pure (b :: bs)) =
        (l.flatMap numbers).findSome? SpelledNumber.failure := fun b =>
      (errorOf_bind_ok (l.mapM read) (b :: ·)).trans ih
    rw [List.mapM_cons, errorOf_bind hrest, List.flatMap_cons, List.findSome?_append, h]

/-- Reading a quantity goes wrong as its number does. -/
lemma errorOf_toQuantity (q : QuantityText) :
    errorOf q.toQuantity = q.numbers.findSome? SpelledNumber.failure := by
  cases q with
  | register name => rfl
  | cell digits | word digits =>
    rw [QuantityText.toQuantity, errorOf_map, QuantityText.numbers, List.findSome?_singleton]
    rfl

/-- Reading a term goes wrong as the first of its numbers that does. -/
lemma errorOf_toTerm (t : TermText) : errorOf t.toTerm = t.numbers.findSome? SpelledNumber.failure := by
  cases t with
  | constant b => rfl
  | halted => rfl
  | compare left c right =>
    rw [TermText.toTerm, TermText.numbers, List.findSome?_append, ← errorOf_toQuantity,
      ← errorOf_toQuantity]
    exact errorOf_bind fun _ => errorOf_bind_ok _ _

/-- Reading a chain of terms goes wrong as the first of all their numbers that does. -/
lemma errorOf_toCondition (c : ConditionText) :
    errorOf c.toCondition = c.numbers.findSome? SpelledNumber.failure := by
  have hlinks : errorOf (linksToTerms c.rest) =
      (c.rest.flatMap fun l => l.2.numbers).findSome? SpelledNumber.failure := by
    refine errorOf_mapM (fun l => ?_) c.rest
    rw [errorOf_map, errorOf_toTerm]
  rw [ConditionText.toCondition, ConditionText.numbers, List.findSome?_append, ← errorOf_toTerm,
    ← hlinks]
  exact errorOf_bind fun _ => errorOf_bind_ok _ _

/-- A sentence fails as the first of its numbers that fails. -/
lemma errorOf_toCommand (s : Sentence) :
    errorOf s.toCommand = s.numbers.findSome? SpelledNumber.failure := by
  cases s with
  | marker _ | flushMemory | load _ | checkSource _ | flushRegisters => rfl
  | writeData address words =>
    rw [Sentence.toCommand, Sentence.numbers, Grammar.findSome?_cons_eq_or, List.map_eq_flatMap]
    refine errorOf_bind fun _ => ?_
    rw [errorOf_bind_ok]
    exact errorOf_mapM (fun w => (List.findSome?_singleton).symm) words
  | writeCode address instructions =>
    rw [Sentence.toCommand, Sentence.numbers, Grammar.findSome?_cons_eq_or]
    refine errorOf_bind fun _ => ?_
    rw [errorOf_bind_ok]
    refine errorOf_mapM (fun i => ?_) instructions
    rw [readInstruction, instructionNumbers, Grammar.findSome?_cons_eq_or, List.findSome?_singleton]
    exact errorOf_bind fun _ => errorOf_bind_ok _ _
  | setRegister name value =>
    rw [Sentence.toCommand, errorOf_map, Sentence.numbers, List.findSome?_singleton]
    rfl
  | run start stop =>
    have hstart : errorOf (readOptional readStart start) =
        (start.toList.map (SpelledNumber.mk .start)).findSome? SpelledNumber.failure := by
      cases start with
      | none => rfl
      | some digits => exact (errorOf_map _ _).trans (List.findSome?_singleton).symm
    have hstop : errorOf (readOptional ConditionText.toCondition stop) =
        (stop.elim [] ConditionText.numbers).findSome? SpelledNumber.failure := by
      cases stop with
      | none => rfl
      | some c => exact (errorOf_map _ _).trans (errorOf_toCondition c)
    rw [Sentence.toCommand, Sentence.numbers, List.findSome?_append, ← hstart, ← hstop]
    exact errorOf_bind fun _ => errorOf_bind_ok _ _
  | claim c text =>
    rw [Sentence.toCommand, errorOf_bind_ok, Sentence.numbers, errorOf_toCondition]

end Sentence

namespace SpelledNumber

/-- What is well spelled spells a number. -/
lemma WellSpelled.exists_spells {n : SpelledNumber} (h : n.WellSpelled) :
    ∃ v, Numeral.Spells n.digits v := by
  have hhex : ∀ digits, IsHex digits → ∃ v, Numeral.Spells digits v := by
    intro digits hdigits
    obtain ⟨v, hv⟩ := hdigits.exists_spellsNat
    exact ⟨v, hv.spells⟩
  obtain ⟨kind, digits⟩ := n
  cases kind with
  | word => exact IsSignedHex.exists_spells h
  | address | start => exact hhex digits h
  | opcode => exact hhex digits h.1

/-- A number is refused exactly if it is not admitted. -/
lemma failure_eq {n : SpelledNumber} (h : n.WellSpelled) {v : Int} (hv : Numeral.Spells n.digits v) :
    n.failure = if n.kind.Admits v then none else some (n.refusal v) := by
  have hhex : ∀ {digits : List Char}, IsHex digits → Numeral.Spells digits v →
      ∃ k : Nat, Numeral.SpellsNat digits k ∧ v = k := by
    intro digits hdigits hv
    obtain ⟨k, hk⟩ := hdigits.exists_spellsNat
    exact ⟨k, hk, hv.unique hk.spells⟩
  have hadmits : ∀ (kind : NumberKind), kind.least = 0 → ∀ bound : Nat, kind.bound = bound →
      ∀ k : Nat, k < bound ↔ kind.Admits k := by
    intro kind hleast bound hbound k
    rw [NumberKind.Admits, hleast, hbound]
    omega
  obtain ⟨kind, digits⟩ := n
  cases kind with
  | word =>
    show errorOf (Word.read digits) = _
    rw [Word.read_eq_of_spells hv, errorOf_ite]
    rfl
  | address =>
    obtain ⟨k, hk, rfl⟩ := hhex h hv
    show errorOf (readAddress digits) = _
    rw [readAddress_eq_of_spells hk, errorOf_ite]
    exact if_congr (hadmits .address rfl (2 ^ 64) rfl k) rfl rfl
  | start =>
    obtain ⟨k, hk, rfl⟩ := hhex h hv
    show errorOf (readStart digits) = _
    rw [readStart_eq_of_spells hk, errorOf_ite]
    refine if_congr (hadmits .start rfl (2 ^ 31) rfl k) rfl (congrArg some ?_)
    simp only [refusal]
    by_cases hnumber : k < 2 ^ 64
    · rw [if_pos hnumber, if_pos (by omega), Int.toNat_natCast]
    · rw [if_neg hnumber, if_neg (by omega)]
  | opcode =>
    obtain ⟨k, hk, rfl⟩ := hhex h.1 hv
    show errorOf (readOpcode digits) = _
    rw [readOpcode_eq_of_spells hk, errorOf_ite]
    exact if_congr (hadmits .opcode rfl (2 ^ 8) rfl k) rfl rfl

/-- **A number fails exactly when it is out of range.** -/
lemma failure_eq_none_iff {n : SpelledNumber} (h : n.WellSpelled) : n.failure = none ↔ n.InRange := by
  obtain ⟨v, hv⟩ := h.exists_spells
  rw [failure_eq h hv, ite_eq_left_iff]
  constructor
  · intro hfails
    exact ⟨v, hv, by_contra fun hout => Option.some_ne_none _ (hfails hout)⟩
  · rintro ⟨w, hw, hadmits⟩ hout
    exact absurd (hv.unique hw ▸ hadmits) hout

/-- A well spelled number goes wrong exactly if its value is not admitted, and this is what is told. -/
lemma failure_eq_some_iff {n : SpelledNumber} (h : n.WellSpelled) {cause : NumberError} :
    n.failure = some cause ↔
      ∃ v, Numeral.Spells n.digits v ∧ ¬ n.kind.Admits v ∧ cause = n.refusal v := by
  constructor
  · intro hfails
    obtain ⟨v, hv⟩ := h.exists_spells
    rw [failure_eq h hv, Option.ite_none_left_eq_some] at hfails
    exact ⟨v, hv, hfails.1, (Option.some.inj hfails.2).symm⟩
  · rintro ⟨v, hv, hout, rfl⟩
    rw [failure_eq h hv, if_neg hout]

/-- One digit or two are an opcode. -/
lemma inRange_opcode {n : SpelledNumber} (h : n.WellSpelled) (hkind : n.kind = .opcode) :
    n.InRange := by
  obtain ⟨kind, digits⟩ := n
  obtain rfl : kind = .opcode := hkind
  obtain ⟨hdigits, hlength⟩ := h
  obtain ⟨k, hk⟩ := hdigits.exists_spellsNat
  have hlt : k < 16 ^ 2 := hk.lt_pow_length.trans_le (Nat.pow_le_pow_right (by omega) hlength)
  exact ⟨k, hk.spells, Int.natCast_nonneg k, show (k : Int) < 2 ^ 8 by omega⟩

end SpelledNumber

/-! ## Lines -/

/-- The first of some numbers that is out of range, and what is told about it. -/
def RefusedFirst (numbers : List SpelledNumber) (cause : NumberError) : Prop :=
  ∃ before n after v, numbers = before ++ n :: after ∧ (∀ m ∈ before, m.InRange) ∧
    Numeral.Spells n.digits v ∧ ¬ n.kind.Admits v ∧ cause = n.refusal v

section Numbers

variable {numbers : List SpelledNumber} (h : ∀ n ∈ numbers, n.WellSpelled)

include h

/-- None of some well spelled numbers goes wrong exactly if all of them are in range. -/
lemma findSome?_failure_eq_none_iff :
    numbers.findSome? SpelledNumber.failure = none ↔ ∀ n ∈ numbers, n.InRange := by
  rw [List.findSome?_eq_none_iff]
  exact forall₂_congr fun n hn => SpelledNumber.failure_eq_none_iff (h n hn)

/-- The first of them that goes wrong is the leftmost one that is not in range. -/
lemma findSome?_failure_eq_some_iff {cause : NumberError} :
    numbers.findSome? SpelledNumber.failure = some cause ↔ RefusedFirst numbers cause := by
  rw [List.findSome?_eq_some_iff]
  constructor
  · rintro ⟨before, n, after, rfl, hn, hbefore⟩
    have hwell : n.WellSpelled := h n (List.mem_append_right before List.mem_cons_self)
    obtain ⟨v, hv, hout, rfl⟩ := (SpelledNumber.failure_eq_some_iff hwell).1 hn
    refine ⟨before, n, after, v, rfl, fun m hm => ?_, hv, hout, rfl⟩
    exact (SpelledNumber.failure_eq_none_iff (h m (List.mem_append_left _ hm))).1 (hbefore m hm)
  · rintro ⟨before, n, after, v, rfl, hbefore, hv, hout, rfl⟩
    have hwell : n.WellSpelled := h n (List.mem_append_right before List.mem_cons_self)
    refine ⟨before, n, after, rfl, ?_, fun m hm => ?_⟩
    · exact (SpelledNumber.failure_eq_some_iff hwell).2 ⟨v, hv, hout, rfl⟩
    · exact (SpelledNumber.failure_eq_none_iff (h m (List.mem_append_left _ hm))).2 (hbefore m hm)

/-- One of them is refused first exactly if one of them is not in range. -/
lemma exists_refusedFirst_iff :
    (∃ cause, RefusedFirst numbers cause) ↔ ∃ n ∈ numbers, ¬ n.InRange := by
  rw [← not_iff_not, not_exists]
  simp only [← findSome?_failure_eq_some_iff h]
  rw [← Option.eq_none_iff_forall_ne_some, findSome?_failure_eq_none_iff h]
  simp only [not_exists, not_and, not_not]

/-- No opcode is refused, and nothing that is empty. -/
lemma RefusedFirst.ne {cause : NumberError} (hrefused : RefusedFirst numbers cause) :
    cause ≠ .blank ∧ ∀ digits e, cause ≠ .opcode digits e := by
  obtain ⟨before, n, after, v, rfl, -, hv, hout, rfl⟩ := hrefused
  have hwell : n.WellSpelled := h n (List.mem_append_right before List.mem_cons_self)
  have hkind : n.kind ≠ .opcode := by
    intro hkind
    obtain ⟨w, hw, hadmits⟩ := SpelledNumber.inRange_opcode hwell hkind
    exact hout (hv.unique hw ▸ hadmits)
  unfold SpelledNumber.refusal
  split
  · split_ifs <;> simp
  · simp
  · split_ifs <;> simp
  · exact absurd ‹_› hkind

end Numbers

/-- A line does not match the grammar and fails for that, or it matches and fails as the first of its
numbers that fails. -/
lemma ofLine_cases (line : List Char) :
    (Grammar.tree (Text.trim line) = none ∧ Command.ofLine line = .error (.form (Text.trim line))) ∨
      ∃ nodes, Grammar.tree (Text.trim line) = some nodes ∧
        (∀ n ∈ Grammar.numbersOfNodes false nodes, n.WellSpelled) ∧
        errorOf (Command.ofLine line) =
          ((Grammar.numbersOfNodes false nodes).findSome? SpelledNumber.failure).map .number := by
  have hread := Grammar.agree_read (Text.trim line)
  rw [Command.ofLine]
  generalize Grammar.tree (Text.trim line) = parsed at hread ⊢
  cases hsentence : Sentence.read (Text.trim line) with
  | none =>
    rw [hsentence] at hread
    cases hread
    exact Or.inl ⟨rfl, rfl⟩
  | some sentence =>
    rw [hsentence] at hread
    cases hread with
    | @some _ nodes h =>
      refine Or.inr ⟨nodes, rfl, ?_⟩
      cases h with
      | nothing => exact ⟨fun n hn => absurd hn List.not_mem_nil, rfl⟩
      | @sentence text s n hs =>
        have hnumbers : Grammar.numbersOfNodes false
            [.mk .instruction text [n], .leaf .endOfInput []] = s.numbers := by
          rw [← Grammar.numbersOfNode_sentence hs]
          show (Grammar.numbersOfNode false n ++ []) ++ [] = _
          rw [List.append_nil, List.append_nil]
        rw [hnumbers]
        refine ⟨Sentence.wellSpelled_numbers (Sentence.wellSpelled_of_read hsentence), ?_⟩
        show errorOf ((s.toCommand.mapError CommandError.number).map some) = _
        rw [errorOf_map, ← errorOf_toCommand]
        cases s.toCommand <;> rfl

section Line

variable {line : List Char}

/-- A line has no form exactly if it is not blank and does not match the grammar, trimmed. -/
lemma ofLine_eq_form_iff {text : List Char} :
    Command.ofLine line = .error (.form text) ↔
      text = Text.trim line ∧ text ≠ [] ∧ Grammar.tree text = none := by
  rcases ofLine_cases line with ⟨htree, hform⟩ | ⟨nodes, htree, -, herror⟩
  · have hne : Text.trim line ≠ [] := by
      intro hnil
      rw [hnil] at htree
      cases htree
    rw [hform, Except.error.injEq, CommandError.form.injEq]
    constructor
    · rintro rfl
      exact ⟨rfl, hne, htree⟩
    · rintro ⟨rfl, -, -⟩
      rfl
  · constructor
    · intro hform
      rw [← errorOf_eq_some_iff, herror] at hform
      obtain ⟨_, -, hcause⟩ := Option.map_eq_some_iff.1 hform
      cases hcause
    · rintro ⟨rfl, -, hnone⟩
      exact absurd (htree.symm.trans hnone) (Option.some_ne_none nodes)

/-- A line is accepted exactly if it matches the grammar and all its numbers are in range. -/
lemma ofLine_eq_ok_iff :
    (∃ c, Command.ofLine line = .ok c) ↔
      ∃ nodes, Grammar.tree (Text.trim line) = some nodes ∧
        ∀ n ∈ Grammar.numbersOfNodes false nodes, n.InRange := by
  rcases ofLine_cases line with ⟨htree, hform⟩ | ⟨nodes, htree, hwell, herror⟩
  · simp [hform, htree]
  · rw [← errorOf_eq_none_iff, herror, Option.map_eq_none_iff, findSome?_failure_eq_none_iff hwell,
      htree]
    simp

/-- A line fails for a number exactly if it matches the grammar, and then for the leftmost one out of
range. -/
lemma ofLine_eq_number_iff {cause : NumberError} :
    Command.ofLine line = .error (.number cause) ↔
      ∃ nodes, Grammar.tree (Text.trim line) = some nodes ∧
        RefusedFirst (Grammar.numbersOfNodes false nodes) cause := by
  rcases ofLine_cases line with ⟨htree, hform⟩ | ⟨nodes, htree, hwell, herror⟩
  · simp [hform, htree]
  · rw [← errorOf_eq_some_iff, herror, Option.map_eq_some_iff, htree]
    simp only [CommandError.number.injEq, exists_eq_right, Option.some.injEq, exists_eq_left',
      findSome?_failure_eq_some_iff hwell]

end Line

/-- **The ways in which a line fails.** Walking the tree of a line gives the same command or error as
reading its sentence, so that no node is ever missing or unexpected, no text is too short and no register
unknown. A line fails for its form exactly if it is not blank and does not match the grammar, and the error
names the line without the blanks around it. A line that matches is a command exactly if all its numbers
are in range; otherwise the leftmost of those that are not is told, which is never an opcode nor empty. The
lines without a command are the blank ones and the comments.

**Proof sketch.** The readers and the grammar agree, and the tree shows the sentence, with its numbers in
their order. Reading a sentence reads its numbers one by one, and what is well spelled fails to be read
only for its size. -/
theorem line_outcomes (line : List Char) :
    Grammar.commandOfLine line = (Command.ofLine line).mapError .ofCommandError ∧
    (∀ text, Command.ofLine line = .error (.form text) ↔
      text = Text.trim line ∧ text ≠ [] ∧ Grammar.tree text = none) ∧
    ((∃ c, Command.ofLine line = .ok c) ↔
      ∃ nodes, Grammar.tree (Text.trim line) = some nodes ∧
        ∀ n ∈ Grammar.numbersOfNodes false nodes, n.InRange) ∧
    ((∃ cause, Command.ofLine line = .error (.number cause)) ↔
      ∃ nodes, Grammar.tree (Text.trim line) = some nodes ∧
        ∃ n ∈ Grammar.numbersOfNodes false nodes, ¬ n.InRange) ∧
    (∀ cause, Command.ofLine line = .error (.number cause) ↔
      ∃ nodes, Grammar.tree (Text.trim line) = some nodes ∧
        RefusedFirst (Grammar.numbersOfNodes false nodes) cause) ∧
    (Command.ofLine line ≠ .error (.number .blank) ∧
      ∀ digits cause, Command.ofLine line ≠ .error (.number (.opcode digits cause))) ∧
    (Command.ofLine line = .ok none ↔ SaysNothing line) := by
  have hwell : ∀ nodes, Grammar.tree (Text.trim line) = some nodes →
      ∀ n ∈ Grammar.numbersOfNodes false nodes, n.WellSpelled := by
    intro nodes htree
    rcases ofLine_cases line with ⟨hnone, -⟩ | ⟨_, hsome, hwell, -⟩
    · cases htree.symm.trans hnone
    · cases htree.symm.trans hsome
      exact hwell
  refine ⟨Grammar.commandOfLine_eq line, fun _ => ofLine_eq_form_iff, ofLine_eq_ok_iff, ?_,
    fun cause => ofLine_eq_number_iff, ⟨?_, ?_⟩, ofLine_eq_none_iff⟩
  · simp only [ofLine_eq_number_iff]
    rw [exists_comm]
    refine exists_congr fun nodes => ?_
    rw [exists_and_left]
    exact and_congr_right fun htree => exists_refusedFirst_iff (hwell nodes htree)
  · intro hblank
    obtain ⟨nodes, htree, hrefused⟩ := ofLine_eq_number_iff.1 hblank
    exact (hrefused.ne (hwell nodes htree)).1 rfl
  · intro digits cause hopcode
    obtain ⟨nodes, htree, hrefused⟩ := ofLine_eq_number_iff.1 hopcode
    exact (hrefused.ne (hwell nodes htree)).2 digits cause rfl

/-- Two arguments of a line do not fit, and the left one is told. -/
theorem line_outcomes_two_arguments :
    Command.ofLine " code write #0x1 0x(1B:0, 10:1ffffffff , 7:-80000001) // two".toList =
        .error (.number (.wide "1ffffffff".toList)) ∧
      ∃ nodes, Grammar.tree
          (Text.trim " code write #0x1 0x(1B:0, 10:1ffffffff , 7:-80000001) // two".toList) =
            some nodes ∧
        RefusedFirst (Grammar.numbersOfNodes false nodes) (.wide "1ffffffff".toList) := by
  have hrefused : Command.ofLine
      " code write #0x1 0x(1B:0, 10:1ffffffff , 7:-80000001) // two".toList =
        .error (.number (.wide "1ffffffff".toList)) := by decide +kernel
  exact ⟨hrefused, ((line_outcomes _).2.2.2.2.1 _).1 hrefused⟩

end AccumulatorMachine.Script

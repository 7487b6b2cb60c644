import AccumulatorMachine.Proofs.LineTrees

/-!
# Walking the tree of a line

The other way from a line to its command: the line is matched with the grammar, and the command is taken
from the tree node by node. The walk asks for the nodes that it needs one after the other, and looks at
their rules and texts. It can fail in more ways than a reader, since a tree may be any tree: a node may
be missing or be of another rule, and a text may be too short or name no register.

None of this happens to the tree of a line. The walk ends as reading the numbers of the sentence does.

## Main definitions

* `Grammar.TreeError`, `Grammar.LineError` — why a tree and a line give no command.
* `Grammar.commandOfTree`, `Grammar.commandOfLine` — the walk.

## Main results

* `Grammar.commandOfNode_of_shows` — the walk through a tree that shows a sentence.
* `Grammar.commandOfLine_eq` — the walk gives the command of the line, or its error.
-/

set_option autoImplicit false

namespace AccumulatorMachine.Script.Grammar

/-- Why a tree gives no command. -/
inductive TreeError where
  /-- A node is missing. -/
  | missing (expected : String)
  /-- A node is of another rule, or has another text. -/
  | unexpected (rule : Rule) (text : List Char) (expected : String)
  /-- A text is too short for the mark in front of it. -/
  | short (text : List Char)
  /-- A text names no register. -/
  | unknownRegister (text : List Char)
  /-- A number is out of range. -/
  | number (cause : NumberError)
deriving DecidableEq

/-- Why a line gives no command. -/
inductive LineError where
  /-- The line, which is given without the blanks around it, does not match the grammar. -/
  | form (line : List Char)
  /-- Its tree gives no command. -/
  | tree (cause : TreeError)
deriving DecidableEq

/-! ## The walk -/

/-- The next node. -/
def nextNode (expected : String) : List Node → Except TreeError (Node × List Node)
  | [] => .error (.missing expected)
  | n :: rest => .ok (n, rest)

/-- A node of a rule that is not expected. -/
def unexpected {α : Type} (n : Node) (expected : String) : Except TreeError α :=
  .error (.unexpected n.rule n.text expected)

/-- A text without the mark in front of it. -/
def unmark (count : Nat) (text : List Char) : Except TreeError (List Char) :=
  if count ≤ text.length then .ok (text.drop count) else .error (.short text)

/-- The text between the marks of a file name or a description. -/
def innerText (expected : String) (n : Node) : Except TreeError String := do
  let (text, _) ← nextNode expected n.children
  .ok (String.ofList text.text)

/-- The address of a node, behind its mark. -/
def addressOf (n : Node) : Except TreeError Nat := do
  let digits ← unmark 3 n.text
  (readAddress digits).mapError .number

/-- The word of a node. -/
def wordOf (n : Node) : Except TreeError Int32 := (Word.read n.text).mapError .number

/-- The value of a node, behind its mark. -/
def valueOf (n : Node) : Except TreeError Int32 := do
  let digits ← unmark 2 n.text
  (Word.read digits).mapError .number

/-- The register of a node. -/
def registerOf (n : Node) : Except TreeError RegisterName :=
  if n.text = "A".toList then .ok .accumulator
  else if n.text = "PC".toList then .ok .counter
  else .error (.unknownRegister n.text)

/-- The quantity of an operand. -/
def quantityOf (n : Node) : Except TreeError Quantity :=
  match n.rule with
  | .register => (registerOf n).map .register
  | .memoryAddress => (addressOf n).map .cell
  | .value => (valueOf n).map .word
  | _ => unexpected n "a register, a memory address or a value"

/-- The relation of a sign, which is looked at behind both operands. -/
def comparisonOf (n : Node) : Except TreeError Comparison :=
  if n.text = "=".toList then .ok .equal
  else if n.text = ">=".toList then .ok .atLeast
  else if n.text = ">".toList then .ok .above
  else if n.text = "<=".toList then .ok .atMost
  else if n.text = "<".toList then .ok .below
  else if n.text = "!=".toList then .ok .different
  else unexpected n "a comparison operator"

/-- The comparison of some nodes: the left quantity, the sign and the right quantity. The sign is looked
up last. -/
def operationOf (nodes : List Node) : Except TreeError Term := do
  let (left, nodes) ← nextNode "a left operand" nodes
  let left ← quantityOf left
  let (sign, nodes) ← nextNode "a comparison operator" nodes
  let (right, _) ← nextNode "a right operand" nodes
  let right ← quantityOf right
  let c ← comparisonOf sign
  .ok (.compare left c right)

/-- The term of a node. -/
def termOf (n : Node) : Except TreeError Term :=
  match n.rule with
  | .boolean => .ok (.constant (n.text = "true".toList))
  | .halted => .ok .halted
  | .operation => operationOf n.children
  | _ => unexpected n "a boolean, halted or a comparison"

/-- Joins the further terms of a chain to what precedes them. The word between two terms is looked at
behind both. -/
def extendBy (c : Condition) : List Node → Except TreeError Condition
  | [] => .ok c
  | [_] => .error (.missing "a boolean term")
  | join :: right :: rest => do
    let t ← termOf right
    if join.text = "AND".toList then extendBy (c.and t) rest
    else if join.text = "OR".toList then extendBy (c.or t) rest
    else unexpected join "AND|OR"

/-- The condition of some nodes: a first term and further ones. -/
def conditionOf (nodes : List Node) : Except TreeError Condition := do
  let (first, rest) ← nextNode "a boolean term" nodes
  let t ← termOf first
  extendBy (.term t) rest

/-- The instruction of a node: its opcode and its argument. -/
def instructionOf (n : Node) : Except TreeError Instruction := do
  let (opcode, rest) ← nextNode "an opcode" n.children
  let opcode ← (readOpcode opcode.text).mapError .number
  let (arg, _) ← nextNode "an argument" rest
  let arg ← wordOf arg
  .ok ⟨opcode, arg⟩

/-- What is done to the memory. -/
def memoryOf (nodes : List Node) : Except TreeError Command := do
  let (n, _) ← nextNode "memory_\x7bload,flush,write\x7d" nodes
  match n.rule with
  | .memoryFlush => .ok .flushMemory
  | .memoryLoad =>
    let (file, _) ← nextNode "a file name" n.children
    (innerText "a file name" file).map .load
  | .memoryWrite =>
    let (address, rest) ← nextNode "a memory address" n.children
    let address ← addressOf address
    let (list, _) ← nextNode "a list of words" rest
    let words ← list.children.mapM wordOf
    .ok (.writeData address words)
  | _ => unexpected n "memory_\x7bload,flush,write\x7d"

/-- What is done to the code. -/
def codeOf (nodes : List Node) : Except TreeError Command := do
  let (n, _) ← nextNode "code_write" nodes
  match n.rule with
  | .codeWrite =>
    let (address, rest) ← nextNode "a code address" n.children
    let address ← addressOf address
    let (list, _) ← nextNode "a list of instructions" rest
    let instructions ← list.children.mapM instructionOf
    .ok (.writeCode address instructions)
  | _ => unexpected n "code_write"

/-- What is done to the registers. -/
def registersOf (nodes : List Node) : Except TreeError Command := do
  let (n, _) ← nextNode "registers_\x7bflush,set\x7d" nodes
  match n.rule with
  | .registersFlush => .ok .flushRegisters
  | .registersSet =>
    let (name, rest) ← nextNode "a register" n.children
    let name ← registerOf name
    let (value, _) ← nextNode "a value" rest
    (valueOf value).map (.setRegister name)
  | _ => unexpected n "registers_\x7bflush,set\x7d"

/-- What one node says about a run: where it starts, or when it stops. -/
def runStep (said : Option Int32 × Condition) (n : Node) :
    Except TreeError (Option Int32 × Condition) :=
  match n.rule with
  | .memoryAddress => do
    let address ← addressOf n
    if address < Word.limit then .ok (some (Int32.ofNat address), said.2)
    else .error (.number (.start address))
  | .runUntilCondition => do
    let (condition, _) ← nextNode "a boolean condition" n.children
    let stop ← conditionOf condition.children
    .ok (said.1, stop)
  | _ => unexpected n "memory address or until condition"

/-- The run of some nodes. What none of them says is as in a run that is not told anything. -/
def runOf (nodes : List Node) : Except TreeError Command := do
  let (start, stop) ← nodes.foldlM runStep (none, neverStop)
  .ok (.run start stop)

/-- The assertion of some nodes: its condition and its description. -/
def assertOf (nodes : List Node) : Except TreeError Command := do
  let (condition, rest) ← nextNode "a boolean condition" nodes
  let condition ← conditionOf condition.children
  let (text, _) ← nextNode "a description" rest
  (innerText "a description text" text).map (.claim condition)

/-- The command of a node. -/
def commandOfNode (n : Node) : Except TreeError Command :=
  match n.rule with
  | .runInstruction => runOf n.children
  | .assertInstruction => assertOf n.children
  | .marker => do
    let (text, _) ← nextNode "a description" n.children
    (innerText "a description text" text).map .marker
  | .registersInstruction => registersOf n.children
  | .memoryInstruction => memoryOf n.children
  | .codeInstruction => codeOf n.children
  | .sourceInstruction => do
    let (file, _) ← nextNode "a file name" n.children
    (innerText "a file name" file).map .checkSource
  | _ => unexpected n "'registers|memory|code|source|run|assert|marker' instruction"

/-- The command of a tree, if there is one. -/
def commandOfTree (nodes : List Node) : Except TreeError (Option Command) := do
  let (n, _) ← nextNode "a sentence" nodes
  if n.rule = .endOfInput then .ok none
  else
    let (n, _) ← nextNode "an instruction" n.children
    (commandOfNode n).map some

/-- The command of a line by way of its tree. A blank line is not matched with the grammar. -/
def commandOfLine (line : List Char) : Except LineError (Option Command) :=
  if Text.trim line = [] then .ok none
  else
    match tree (Text.trim line) with
    | none => .error (.form (Text.trim line))
    | some nodes => (commandOfTree nodes).mapError .tree

/-- The error of a line whose tree is walked. -/
def LineError.ofCommandError : CommandError → LineError
  | .form line => .form line
  | .number cause => .tree (.number cause)

/-! ## The walk through the tree of a line -/

section Errors

variable {ε ε' α β : Type} (f : ε → ε')

/-- A result is handed on as it is. -/
lemma ok_bind (a : α) (next : α → Except ε β) : Except.ok a >>= next = next a := rfl

/-- Errors of a second step may be told in other words as those of the first. -/
lemma mapError_bind (x : Except ε α) (next : α → Except ε β) :
    (x >>= next).mapError f = x.mapError f >>= fun a => (next a).mapError f := by
  cases x <;> rfl

/-- They may be told so before or after something is made of the result. -/
lemma mapError_map (x : Except ε α) (g : α → β) : (x.map g).mapError f = (x.mapError f).map g := by
  cases x <;> rfl

/-- Those of a list are told so item by item. -/
lemma mapError_mapM (read : α → Except ε β) (l : List α) :
    (l.mapM read).mapError f = l.mapM fun a => (read a).mapError f := by
  induction l with
  | nil => rfl
  | cons a l ih =>
    rw [List.mapM_cons, List.mapM_cons, mapError_bind]
    simp only [mapError_bind, ih]
    rfl

end Errors

/-- A mark is as long as it is. -/
lemma unmark_append (mark text : List Char) : unmark mark.length (mark ++ text) = .ok text := by
  rw [unmark, if_pos (by simp), List.drop_left]

/-- The node of an address gives the address that is read from its digits. -/
lemma addressOf_cellNode (digits : List Char) :
    addressOf (cellNode digits) = (readAddress digits).mapError .number := by
  rw [addressOf]
  show unmark "#0x".toList.length ("#0x".toList ++ digits) >>= _ = _
  rw [unmark_append]
  rfl

/-- The node of a value gives the word that is read from its digits. -/
lemma valueOf_valueNode (digits : List Char) :
    valueOf (valueNode digits) = (Word.read digits).mapError .number := by
  rw [valueOf]
  show unmark "0x".toList.length ("0x".toList ++ digits) >>= _ = _
  rw [unmark_append]
  rfl

/-- The node of a register gives the register. -/
lemma registerOf_registerNode (name : RegisterName) : registerOf (registerNode name) = .ok name := by
  cases name <;> rfl

/-- The node of a comparison gives the comparison. -/
lemma comparisonOf_signNode (c : Comparison) : comparisonOf (signNode c) = .ok c := by
  cases c <;> rfl

/-- The node of a quantity gives what is read from the quantity. -/
lemma quantityOf_quantityNode (q : QuantityText) :
    quantityOf (quantityNode q) = q.toQuantity.mapError .number := by
  cases q with
  | register name =>
    show (registerOf (registerNode name)).map Quantity.register = _
    rw [registerOf_registerNode]
    rfl
  | cell digits =>
    show (addressOf (cellNode digits)).map Quantity.cell = _
    rw [addressOf_cellNode, QuantityText.toQuantity, mapError_map]
  | word digits =>
    show (valueOf (valueNode digits)).map Quantity.word = _
    rw [valueOf_valueNode, QuantityText.toQuantity, mapError_map]

/-- A node that shows a term gives what is read from the term. -/
lemma termOf_of_shows {t : TermText} {n : Node} (h : ShowsTerm t n) :
    termOf n = t.toTerm.mapError .number := by
  cases h with
  | constant b => cases b <;> rfl
  | halted => rfl
  | compare left c right text =>
    show operationOf [quantityNode left, signNode c, quantityNode right] = _
    simp only [operationOf, nextNode, ok_bind, quantityOf_quantityNode, comparisonOf_signNode,
      TermText.toTerm, mapError_bind]
    rfl

/-- The further terms of a chain are joined one by one to what precedes them. -/
lemma extendBy_of_shows {links : List (Connective × TermText)} {found : List (List Node)}
    (h : List.Forall₂ ShowsLink links found) (c : Condition) :
    extendBy c found.flatten =
      (linksToTerms links).mapError .number >>= fun rest => .ok (rest.foldl Condition.extend c) := by
  induction h generalizing c with
  | nil => rfl
  | @cons l nodes links found hl hrest ih =>
    obtain ⟨n, rfl, ht⟩ := hl
    obtain ⟨join, t⟩ := l
    have hjoin : extendBy c (joinNode join :: n :: found.flatten) =
        termOf n >>= fun t => extendBy (c.extend (join, t)) found.flatten := by
      cases join <;> rfl
    show extendBy c (joinNode join :: n :: found.flatten) = _
    rw [hjoin, termOf_of_shows ht, linksToTerms_cons, linkToTerm]
    simp only [ih]
    cases t.toTerm with
    | error cause => rfl
    | ok t =>
      cases linksToTerms links with
      | error cause => rfl
      | ok rest => rfl

/-- A node that shows a chain of terms gives what is read from the chain, from left to right. -/
lemma conditionOf_of_shows {c : ConditionText} {n : Node} (h : ShowsCondition c n) :
    conditionOf n.children = c.toCondition.mapError .number := by
  cases h with
  | mk text hfirst hrest =>
    simp only [Node.children, conditionOf, nextNode, ok_bind, termOf_of_shows hfirst,
      extendBy_of_shows hrest, ConditionText.toCondition, mapError_bind]
    rfl

/-- The nodes of words give what is read from their digits. -/
lemma mapM_wordOf (words : List (List Char)) :
    (words.map wordNode).mapM wordOf = (words.mapM Word.read).mapError .number := by
  rw [mapError_mapM, List.mapM_map]
  rfl

/-- The node of an instruction gives what is read from its two numbers. -/
lemma instructionOf_instructionNode (i : List Char × List Char) :
    instructionOf (instructionNode i) = (readInstruction i).mapError .number := by
  show instructionOf (.mk .instructionWord _ [opcodeNode i.1, wordNode i.2]) = _
  simp only [instructionOf, Node.children, nextNode, ok_bind, readInstruction, mapError_bind]
  rfl

/-- So do the nodes of several instructions. -/
lemma mapM_instructionOf (instructions : List (List Char × List Char)) :
    (instructions.map instructionNode).mapM instructionOf =
      (instructions.mapM readInstruction).mapError .number := by
  rw [mapError_mapM, List.mapM_map]
  exact congrArg (List.mapM · instructions) (funext instructionOf_instructionNode)

/-- The node of an address says where a run starts. -/
lemma runStep_cellNode (said : Option Int32 × Condition) (digits : List Char) :
    runStep said (cellNode digits) =
      (readStart digits).mapError .number >>= fun start => .ok (some start, said.2) := by
  show (addressOf (cellNode digits) >>= fun address => if address < Word.limit then
    .ok (some (Int32.ofNat address), said.2) else .error (.number (.start address))) = _
  rw [addressOf_cellNode, readStart, mapError_bind]
  cases readAddress digits with
  | error cause => rfl
  | ok address =>
    simp only [Except.mapError, ok_bind]
    split <;> rfl

/-- A node that shows a condition says under which condition a run stops. -/
lemma runStep_until (said : Option Int32 × Condition) (text : List Char) {c : ConditionText} {n : Node}
    (h : ShowsCondition c n) :
    runStep said (.mk .runUntilCondition text [n]) =
      c.toCondition.mapError .number >>= fun stop => .ok (said.1, stop) := by
  show (conditionOf n.children >>= fun stop => .ok (said.1, stop)) = _
  rw [conditionOf_of_shows h]

/-- A run says where it starts before it says when it stops, and neither twice. -/
lemma runOf_of_shows (start : Option (List Char)) {stop : Option ConditionText} {nodes : List Node}
    (h : ShowsStop stop nodes) :
    runOf ((start.map cellNode).toList ++ nodes) =
      (Sentence.run start stop).toCommand.mapError .number := by
  have hstart : (start.map cellNode).toList.foldlM runStep (none, neverStop) =
      (readOptional readStart start).mapError .number >>= fun start => .ok (start, neverStop) := by
    cases start with
    | none => rfl
    | some digits =>
      show runStep (none, neverStop) (cellNode digits) >>= pure = _
      rw [runStep_cellNode, readOptional]
      cases readStart digits <;> rfl
  have hstop : ∀ said : Option Int32 × Condition, said.2 = neverStop → nodes.foldlM runStep said =
      (readOptional ConditionText.toCondition stop).mapError .number >>= fun stop =>
        .ok (said.1, stop.getD neverStop) := by
    rintro ⟨said, _⟩ rfl
    cases h with
    | none => rfl
    | some text h =>
      show runStep _ _ >>= pure = _
      rw [runStep_until _ text h, readOptional]
      cases ConditionText.toCondition _ <;> rfl
  rw [runOf, List.foldlM_append, hstart, Sentence.toCommand]
  cases readOptional readStart start with
  | error cause => rfl
  | ok start =>
    show (nodes.foldlM runStep (start, neverStop) >>= _) = _
    rw [hstop _ rfl]
    cases readOptional ConditionText.toCondition stop <;> rfl

/-- A node that shows a sentence gives what is read from the sentence. -/
lemma commandOfNode_of_shows {s : Sentence} {n : Node} (h : ShowsSentence s n) :
    commandOfNode n = s.toCommand.mapError .number := by
  cases h with
  | marker outer text => rfl
  | flushMemory outer => rfl
  | load outer inner file => rfl
  | writeData outer inner list address words =>
    show memoryOf [.mk .memoryWrite inner [cellNode address, .mk .wordList list (words.map wordNode)]] = _
    simp only [memoryOf, nextNode, ok_bind, Node.rule, Node.children, addressOf_cellNode,
      Sentence.toCommand, mapError_bind, mapM_wordOf]
    rfl
  | writeCode outer inner list address instructions =>
    show codeOf [.mk .codeWrite inner
      [cellNode address, .mk .instructionList list (instructions.map instructionNode)]] = _
    simp only [codeOf, nextNode, ok_bind, Node.rule, Node.children, addressOf_cellNode,
      Sentence.toCommand, mapError_bind, mapM_instructionOf]
    rfl
  | checkSource outer file => rfl
  | flushRegisters outer => rfl
  | setRegister outer inner name value =>
    show registersOf [.mk .registersSet inner [registerNode name, valueNode value]] = _
    simp only [registersOf, nextNode, ok_bind, Node.rule, Node.children, registerOf_registerNode,
      valueOf_valueNode, Sentence.toCommand, mapError_map]
  | run outer start hstop =>
    exact runOf_of_shows start hstop
  | claim outer text hcondition =>
    show assertOf [_, descriptionNode text] = _
    simp only [assertOf, nextNode, ok_bind, conditionOf_of_shows hcondition, Sentence.toCommand,
      mapError_bind]
    rfl

/-- **Walking the tree of a line gives the command of the line, or its error.** -/
theorem commandOfLine_eq (line : List Char) :
    commandOfLine line = (Command.ofLine line).mapError .ofCommandError := by
  have hread := agree_read (Text.trim line)
  rw [commandOfLine, Command.ofLine]
  split
  · rename_i hnil
    rw [hnil]
    rfl
  · generalize tree (Text.trim line) = nodes at hread ⊢
    generalize Sentence.read (Text.trim line) = sentence at hread ⊢
    cases hread with
    | none => rfl
    | some h =>
      cases h with
      | nothing => rfl
      | @sentence text s n hs =>
        show ((commandOfNode n).map some).mapError LineError.tree =
          (((s.toCommand).mapError CommandError.number).map some).mapError LineError.ofCommandError
        rw [commandOfNode_of_shows hs]
        cases s.toCommand <;> rfl

end AccumulatorMachine.Script.Grammar

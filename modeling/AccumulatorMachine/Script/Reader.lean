import AccumulatorMachine.Text.Numeral

/-!
# Readers

The pieces that a script line is read with. A reader takes what it recognises from the front of a text
and leaves the rest; it never tries a second way to recognise the same thing.

Between the tokens of a line stand blanks, tabs and at most one comment, which runs to the end of the
text. Inside a token nothing is skipped.

## Main definitions

* `Script.Reader` — a function that takes something from the front of a text.
* `Script.skip` — what is left behind blanks and a comment.
* `Script.literal`, `Script.token` — a fixed word, and one that may stand behind blanks.
* `Script.hexDigits`, `signedDigits`, `cellDigits`, `wordDigits` — the spellings of numbers.
* `Script.description`, `Script.fileName` — delimited texts.
* `Script.repeated` — as many items as there are.
-/

set_option autoImplicit false

namespace AccumulatorMachine.Script

/-- Takes something from the front of a text and leaves the rest; `none` when it is not there. -/
abbrev Reader (α : Type) : Type := List Char → Option (α × List Char)

/-- A blank or a tab, the characters that may stand between tokens. -/
def isGap (c : Char) : Bool := c = ' ' || c = '\t'

/-- The mark that opens a comment. -/
def commentMark : List Char := ['/', '/']

/-- What is left behind blanks, tabs and a comment, which has no end but that of the text. -/
def skip (cs : List Char) : List Char :=
  let rest := cs.dropWhile isGap
  if commentMark.isPrefixOf rest then [] else rest

/-- What follows a word at the front of a text. -/
def after : (word text : List Char) → Option (List Char)
  | [], cs => some cs
  | _ :: _, [] => none
  | w :: ws, c :: cs => if w = c then after ws cs else none

/-- Exactly a text that starts with the word has something after it. -/
theorem after_eq_some_iff {word cs rest : List Char} :
    after word cs = some rest ↔ cs = word ++ rest := by
  induction word generalizing cs with
  | nil => simp [after]
  | cons w ws ih =>
    cases cs with
    | nil => simp [after]
    | cons c cs => by_cases h : w = c <;> simp [after, h, ih, eq_comm]

/-- Takes a fixed word. -/
def literal (word : String) (cs : List Char) : Option (List Char) := after word.toList cs

/-- Takes a fixed word, perhaps behind blanks. -/
def token (word : String) (cs : List Char) : Option (List Char) := literal word (skip cs)

/-! ## Numbers -/

/-- Takes the longest run of base 16 digits, which must not be empty. -/
def hexDigits : Reader (List Char) := fun cs =>
  let digits := cs.takeWhile Numeral.isDigit
  if digits = [] then none else some (digits, cs.dropWhile Numeral.isDigit)

/-- Takes digits with an optional minus sign. -/
def signedDigits : Reader (List Char)
  | '-' :: cs => (hexDigits cs).map fun (digits, rest) => ('-' :: digits, rest)
  | cs => hexDigits cs

/-- Takes an address, and gives its digits. -/
def cellDigits : Reader (List Char) := fun cs => (literal "#0x" cs).bind hexDigits

/-- Takes a value, and gives its digits with their sign. -/
def wordDigits : Reader (List Char) := fun cs => (literal "0x" cs).bind signedDigits

/-- Takes an opcode: one digit, or two if there are two. -/
def opcodeDigits : Reader (List Char)
  | a :: b :: cs =>
    if Numeral.isDigit a then
      if Numeral.isDigit b then some ([a, b], cs) else some ([a], b :: cs)
    else none
  | [a] => if Numeral.isDigit a then some ([a], []) else none
  | [] => none

/-! ## Delimited texts -/

/-- The text up to the first pair of dollar signs, and what follows them. -/
def untilDollars : Reader (List Char)
  | [] => none
  | c :: cs =>
    if c = '$' ∧ cs.head? = some '$' then some ([], cs.tail)
    else (untilDollars cs).map fun (text, rest) => (c :: text, rest)

/-- Takes a description: any text between two pairs of dollar signs. -/
def description : Reader (List Char) := fun cs => (literal "$$" cs).bind untilDollars

/-- Takes a file name: a text that is not empty, between quotes. -/
def fileName : Reader (List Char) := fun cs => do
  let cs ← literal "\"" cs
  let name := cs.takeWhile (· ≠ '"')
  if name = [] then none
  else
    let rest ← literal "\"" (cs.dropWhile (· ≠ '"'))
    some (name, rest)

/-! ## Repetition -/

/-- Takes items for as long as there is one, but not more than `count`. -/
def repeatedUpTo {α : Type} (item : Reader α) : (count : Nat) → List Char → List α × List Char
  | 0, cs => ([], cs)
  | count + 1, cs =>
    match item cs with
    | none => ([], cs)
    | some (a, rest) =>
      let (more, rest) := repeatedUpTo item count rest
      (a :: more, rest)

/-- Takes items for as long as there is one. A text has no more items than characters, as every item
takes at least one. -/
def repeated {α : Type} (item : Reader α) (cs : List Char) : List α × List Char :=
  repeatedUpTo item cs.length cs

end AccumulatorMachine.Script

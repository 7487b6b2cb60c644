import AccumulatorMachine.Machine.Basic

/-!
# Conditions

Statements about the state of a machine: chains of terms joined by `AND` and `OR`, both of one
precedence and read from left to right.

A condition either holds, or fails for a reason that can be told, or cannot be evaluated, since a
comparison looks at a cell that does not exist. A term that cannot change the verdict is not looked at.

## Main definitions

* `RegisterName`, `Quantity` — what a comparison compares.
* `Comparison` — the six relations.
* `Term`, `Condition` — conditions; the type allows no other nesting than from the left.
* `Condition.shortfall` — why a condition fails on a machine, if it does.
* `Condition.text` — the written form of a condition; `OR` comes with parentheses.

## Main results

* `Condition.join_append` — joining terms one after the other.
-/

set_option autoImplicit false

namespace AccumulatorMachine

/-- The names of the registers. -/
inductive RegisterName where
  /-- The accumulator. -/
  | accumulator
  /-- The program counter. -/
  | counter
deriving DecidableEq

namespace RegisterName

/-- The name in a script. -/
def text : RegisterName → String
  | accumulator => "A"
  | counter => "PC"

/-- The word in the register of a name. -/
def value (r : Registers) : RegisterName → Int32
  | accumulator => r.accumulator
  | counter => r.counter

/-- Puts a word into the register of a name. -/
def assign (r : Registers) (w : Int32) : RegisterName → Registers
  | accumulator => { r with accumulator := w }
  | counter => { r with counter := w }

end RegisterName

/-- Why a cell cannot be looked at or written. -/
inductive CellError where
  /-- The address is beyond the signed words. -/
  | beyondWords (address : Nat)
  /-- The memory refuses the address. -/
  | refused (cause : MemoryError)
deriving DecidableEq

/-- The wording of a cell error. -/
def CellError.message : CellError → String
  | .beyondWords address => "data address #0x" ++ Numeral.upperHex 4 address ++ " is out of range"
  | .refused cause => cause.message

/-- Something with a value. -/
inductive Quantity where
  /-- A register. -/
  | register (name : RegisterName)
  /-- A cell. -/
  | cell (address : Nat)
  /-- A word. -/
  | word (value : Int32)
deriving DecidableEq

namespace Quantity

/-- The current value of a quantity. -/
def value (m : Machine) : Quantity → Except CellError Int32
  | register name => .ok (name.value m.registers)
  | cell address =>
    if address < Word.limit then (m.memory.readData (Int32.ofNat address)).mapError .refused
    else .error (.beyondWords address)
  | word value => .ok value

/-- The written form of a quantity; a word is written by its bit pattern. -/
def text : Quantity → String
  | register name => name.text
  | cell address => "#0x" ++ Numeral.upperHex 4 address
  | word value => "0x" ++ Numeral.upperHex 2 (Word.pattern value)

end Quantity

/-- The relations between two words. -/
inductive Comparison where
  /-- Equal. -/
  | equal
  /-- Greater or equal. -/
  | atLeast
  /-- Greater. -/
  | above
  /-- Less or equal. -/
  | atMost
  /-- Less. -/
  | below
  /-- Different. -/
  | different
deriving DecidableEq

namespace Comparison

/-- Whether the relation holds between two words, as signed numbers. -/
def holds : Comparison → Int32 → Int32 → Bool
  | equal, a, b => a = b
  | atLeast, a, b => b ≤ a
  | above, a, b => b < a
  | atMost, a, b => a ≤ b
  | below, a, b => a < b
  | different, a, b => a ≠ b

/-- The sign of a relation. -/
def sign : Comparison → String
  | equal => "="
  | atLeast => "≥"
  | above => ">"
  | atMost => "≤"
  | below => "<"
  | different => "≠"

/-- The relation in words. -/
def words : Comparison → String
  | equal => "equal to"
  | atLeast => "greater than or equal to"
  | above => "strictly greater than"
  | atMost => "lesser than or equal to"
  | below => "strictly lesser than"
  | different => "different than"

end Comparison

/-- A statement that joins no others. -/
inductive Term where
  /-- Always or never true. -/
  | constant (b : Bool)
  /-- The machine has halted. -/
  | halted
  /-- Two quantities are in a relation. -/
  | compare (left : Quantity) (c : Comparison) (right : Quantity)
deriving DecidableEq

/-- A chain of terms, read from left to right. -/
inductive Condition where
  /-- A single term. -/
  | term (t : Term)
  /-- What precedes, and a term. -/
  | and (first : Condition) (t : Term)
  /-- What precedes, or a term. -/
  | or (first : Condition) (t : Term)
deriving DecidableEq

/-- The ways to join a term to what precedes it. -/
inductive Connective where
  /-- Both. -/
  | and
  /-- At least one. -/
  | or
deriving DecidableEq

/-- Why a condition fails. -/
inductive Shortfall where
  /-- Two values are not in the relation. -/
  | compare (left : Quantity) (c : Comparison) (right : Quantity) (leftValue rightValue : Int32)
  /-- The term is never true. -/
  | never
  /-- The machine has not halted. -/
  | running
  /-- Neither what precedes nor the term holds. -/
  | neither (first second : Shortfall)
deriving DecidableEq

namespace Term

/-- The written form of a term. -/
def text : Term → String
  | constant b => if b then "true" else "false"
  | halted => "halted"
  | compare left c right => left.text ++ " " ++ c.sign ++ " " ++ right.text

/-- Why a term fails on a machine, if it does. The left quantity is looked at first. -/
def shortfall (m : Machine) : Term → Except CellError (Option Shortfall)
  | constant b => .ok (if b then none else some .never)
  | halted => .ok (if m.halted then none else some .running)
  | compare left c right =>
    (left.value m).bind fun a =>
      (right.value m).map fun b => if c.holds a b then none else some (.compare left c right a b)

end Term

/-- The wording of a shortfall. -/
def Shortfall.message : Shortfall → String
  | .compare left c right a b =>
    "(" ++ (Term.compare left c right).text ++ ") " ++ Numeral.decimal a.toInt ++ " is not " ++
      c.words ++ " " ++ Numeral.decimal b.toInt
  | .never => "value is false"
  | .running => "the machine is not halted"
  | .neither first second => first.message ++ " and " ++ second.message

namespace Condition

/-- Why a condition fails on a machine, if it does. What precedes `AND` is the reason if it fails; what
precedes `OR` settles the verdict if it holds. -/
def shortfall (m : Machine) : Condition → Except CellError (Option Shortfall)
  | term t => t.shortfall m
  | and first t =>
    (shortfall m first).bind fun
      | some why => .ok (some why)
      | none => t.shortfall m
  | or first t =>
    (shortfall m first).bind fun
      | none => .ok none
      | some why => (t.shortfall m).map fun other => other.map (.neither why)

/-- The written form of a condition. -/
def text : Condition → String
  | term t => t.text
  | and first t => first.text ++ " AND " ++ t.text
  | or first t => "(" ++ first.text ++ " OR " ++ t.text ++ ")"

/-- Joins one more term to a condition. -/
def extend (c : Condition) : Connective × Term → Condition
  | (.and, t) => c.and t
  | (.or, t) => c.or t

/-- The condition of a chain of terms. -/
def join (first : Term) (rest : List (Connective × Term)) : Condition :=
  rest.foldl extend (term first)

/-- A longer chain extends the condition of a shorter one. -/
theorem join_append (first : Term) (rest more : List (Connective × Term)) :
    join first (rest ++ more) = more.foldl extend (join first rest) :=
  List.foldl_append

end Condition

end AccumulatorMachine

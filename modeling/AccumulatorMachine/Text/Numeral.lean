/-!
# Numerals

Integers as text: reading base 16 within a range of integers, and writing in bases 2, 10 and 16.

A number to read is an optional sign and at least one digit; a minus sign is a sign only if the range
has negative numbers. The digits are taken from the left, and the first of them that is no digit or
leaves the range decides the error.

## Main definitions

* `Numeral.digit?` — the value of a base 16 digit in either letter case.
* `Numeral.magnitude` — the value of a run of digits that must not exceed a bound.
* `Numeral.read` — an integer of a range.
* `Numeral.digits` — the digits of a number in a base, most significant first.
* `Numeral.decimal`, `natural`, `binary`, `upperHex`, `lowerHex` — written numbers, all but the first
  with a least number of digits.
-/

set_option autoImplicit false

namespace AccumulatorMachine

/-- Why a text is no integer of the range asked for. -/
inductive NumeralError where
  /-- There is no character at all. -/
  | empty
  /-- A character that is no digit, or a sign without digits. -/
  | invalidDigit
  /-- The digits read so far exceed the greatest number. -/
  | tooLarge
  /-- The digits read so far go below the least number. -/
  | tooSmall
deriving DecidableEq

/-- The wording of a reading error. -/
def NumeralError.message : NumeralError → String
  | .empty => "cannot parse integer from empty string"
  | .invalidDigit => "invalid digit found in string"
  | .tooLarge => "number too large to fit in target type"
  | .tooSmall => "number too small to fit in target type"

namespace Numeral

/-! ## Reading -/

/-- The value of a base 16 digit, in either letter case. -/
def digit? (c : Char) : Option Nat :=
  if '0' ≤ c ∧ c ≤ '9' then some (c.toNat - '0'.toNat)
  else if 'a' ≤ c ∧ c ≤ 'f' then some (c.toNat - 'a'.toNat + 10)
  else if 'A' ≤ c ∧ c ≤ 'F' then some (c.toNat - 'A'.toNat + 10)
  else none

/-- A base 16 digit. -/
def isDigit (c : Char) : Bool := (digit? c).isSome

/-- The value of the digits of a text behind those already read, which make `value`; no value on the
way may exceed `bound`. -/
def magnitude (bound : Nat) (excess : NumeralError) (value : Nat) :
    List Char → Except NumeralError Nat
  | [] => .ok value
  | c :: cs =>
    match digit? c with
    | none => .error .invalidDigit
    | some d =>
      if value * 16 + d ≤ bound then magnitude bound excess (value * 16 + d) cs
      else .error excess

/-- Takes one sign off a text: whether it is a minus sign, and the rest. -/
def unsign : List Char → Bool × List Char
  | '-' :: cs => (true, cs)
  | '+' :: cs => (false, cs)
  | cs => (false, cs)

/-- The integer from `least` to `greatest` that a text spells in base 16. -/
def read (least : Int) (greatest : Nat) (text : List Char) : Except NumeralError Int :=
  if text = [] then .error .empty
  else
    let (negative, cs) := unsign text
    if cs = [] then .error .invalidDigit
    else if negative = true then
      if least < 0 then
        (magnitude least.natAbs .tooSmall 0 cs).map fun value : Nat => -(value : Int)
      else .error .invalidDigit
    else (magnitude greatest .tooLarge 0 cs).map fun value : Nat => (value : Int)

/-! ## Writing -/

/-- The digits of a number in a base, most significant first; one digit in a base below two. -/
def digits (base n : Nat) : List Nat :=
  if _h : base < 2 ∨ n < base then [n] else digits base (n / base) ++ [n % base]
termination_by n
decreasing_by exact Nat.div_lt_self (by omega) (by omega)

/-- The character of a digit below 16, letters in lower case. -/
def lowerDigit (d : Nat) : Char := if d < 10 then Char.ofNat (48 + d) else Char.ofNat (87 + d)

/-- The character of a digit below 16, letters in upper case. -/
def upperDigit (d : Nat) : Char := if d < 10 then Char.ofNat (48 + d) else Char.ofNat (55 + d)

/-- A number in a base with at least `width` digits, letters in upper case. -/
def natural (base width n : Nat) : String :=
  String.ofList (((digits base n).map upperDigit).leftpad width '0')

/-- An integer in base 10. -/
def decimal (n : Int) : String := (if n < 0 then "-" else "") ++ natural 10 1 n.natAbs

/-- A number in base 2 with at least `width` digits. -/
def binary (width n : Nat) : String := natural 2 width n

/-- A number in base 16 with at least `width` digits, letters in upper case. -/
def upperHex (width n : Nat) : String := natural 16 width n

/-- A number in base 16 with at least `width` digits, letters in lower case. -/
def lowerHex (width n : Nat) : String :=
  String.ofList (((digits 16 n).map lowerDigit).leftpad width '0')

/-- A text with blanks in front of it to at least `width` characters. -/
def padStart (width : Nat) (text : String) : String :=
  String.ofList (text.toList.leftpad width ' ')

/-- A text with blanks behind it to at least `width` characters. -/
def padEnd (width : Nat) (text : String) : String :=
  String.ofList (text.toList.rightpad width ' ')

end Numeral

end AccumulatorMachine

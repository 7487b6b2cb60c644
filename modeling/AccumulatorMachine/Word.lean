import AccumulatorMachine.Text.Blank
import AccumulatorMachine.Text.Numeral

/-!
# Machine words and the numbers of a text

A machine word is a signed integer of 32 bits; its arithmetic wraps around. This module holds the bit
pattern of a word, and the three kinds of number that an image or a script spells in base 16: words,
addresses and opcodes.

A word may be spelled as a signed number or as its bit pattern: `-1` and `ffffffff` are one word.

## Main definitions

* `Word.limit` — the first number beyond the words.
* `Word.pattern` — the bits of a word, read as a number that is not negative.
* `Word.read?` — a signed number of 32 bits.
* `Word.read`, `readAddress`, `readOpcode` — the numbers of an image or a script.
* `NumberError` — why a text is none of them.
-/

set_option autoImplicit false

namespace AccumulatorMachine

/-- Why a text is no number of the kind asked for. -/
inductive NumberError where
  /-- The text is blank. -/
  | blank
  /-- The text is no number, or one far too wide for a word. -/
  | word (text : List Char) (cause : NumeralError)
  /-- The number has more than 32 bits. -/
  | wide (text : List Char)
  /-- The text is no address. -/
  | address (text : List Char) (cause : NumeralError)
  /-- The text is no opcode. -/
  | opcode (text : List Char) (cause : NumeralError)
  /-- An address at which no run can start, as it is beyond the signed words. -/
  | start (address : Nat)
deriving DecidableEq

/-- The wording of a number error. -/
def NumberError.message : NumberError → String
  | .blank => "Empty string is not a valid Hexadecimal."
  | .word text cause =>
    "'" ++ String.ofList text ++ "' is not a valid hexadecimal word: " ++ cause.message
  | .wide text => "'" ++ String.ofList text ++ "' does not fit in a 32 bits word."
  | .address text cause =>
    "'" ++ String.ofList text ++ "' is not a valid hexadecimal address: " ++ cause.message
  | .opcode text cause => "'" ++ String.ofList text ++ "' is not a valid opcode: " ++ cause.message
  | .start number => "code address 0x" ++ Numeral.lowerHex 1 number ++ " is out of range"

namespace Word

/-- The first number beyond the words, which are half of them negative. -/
abbrev limit : Nat := 0x80000000

/-- The bits of a word, read as a number that is not negative. -/
def pattern (w : Int32) : Nat := w.toUInt32.toNat

/-- The signed number of 32 bits that a text spells in base 16. -/
def read? (text : List Char) : Option Int32 :=
  (Numeral.read (-0x80000000) 0x7FFFFFFF text).toOption.map Int32.ofInt

/-- The word that a text spells in base 16, as a signed number or as its bit pattern. A number of more
than 64 bits is told from one that is merely too wide for a word. -/
def read (text : List Char) : Except NumberError Int32 :=
  if Text.trim text = [] then .error .blank
  else
    match Numeral.read (-0x8000000000000000) 0x7FFFFFFFFFFFFFFF (Text.trim text) with
    | .error cause => .error (.word text cause)
    | .ok value =>
      if -0x80000000 ≤ value ∧ value ≤ 0xFFFFFFFF then .ok (Int32.ofInt value)
      else .error (.wide text)

end Word

/-- The greatest number of 64 bits. -/
abbrev greatestAddress : Nat := 0xFFFFFFFFFFFFFFFF

/-- The address of 64 bits that a text spells in base 16. -/
def readAddress (text : List Char) : Except NumberError Nat :=
  if Text.trim text = [] then .error .blank
  else
    match Numeral.read 0 greatestAddress (Text.trim text) with
    | .error cause => .error (.address text cause)
    | .ok value => .ok value.toNat

/-- The opcode that a text spells in base 16. -/
def readOpcode (text : List Char) : Except NumberError UInt8 :=
  match Numeral.read 0 255 (Text.trim text) with
  | .error cause => .error (.opcode text cause)
  | .ok value => .ok (UInt8.ofNat value.toNat)

end AccumulatorMachine

/-!
# Addressing modes

The four ways in which an instruction designates its operand, numbered by the two flag bits of the
opcode and told apart in a source text by a mark in front of the argument.

## Main definitions

* `Mode` — the addressing modes.
* `Mode.flags`, `Mode.ofFlags` — the flag bits of a mode, and the mode of two bits.
* `Mode.mark` — the mark of a mode in a source text.
* `Mode.splitMark` — the mode that a token is marked with, and the token without its mark.
-/

set_option autoImplicit false

namespace AccumulatorMachine

/-- The ways in which an instruction designates its operand. -/
inductive Mode where
  /-- The cell at the argument; for a jump, a distance from the program counter. -/
  | direct
  /-- The argument itself; for a jump, the destination. -/
  | immediate
  /-- The cell whose address is in the cell at the argument; for a jump, a distance kept there. -/
  | indirect
  /-- The cell at the argument; for a jump, it holds the destination. -/
  | absolute
deriving DecidableEq

namespace Mode

/-- The flag bits of a mode. -/
def flags : Mode → Nat
  | direct => 0
  | immediate => 1
  | indirect => 2
  | absolute => 3

/-- The mode of two flag bits. -/
def ofFlags : Fin 4 → Mode
  | 0 => direct
  | 1 => immediate
  | 2 => indirect
  | 3 => absolute

/-- The mark of a mode in a source text, in front of the argument. -/
def mark : Mode → List Char
  | direct => []
  | immediate => ['#']
  | indirect => ['@']
  | absolute => ['&']

/-- The mode that a token is marked with, and the token without its mark. -/
def splitMark : List Char → Mode × List Char
  | '#' :: rest => (immediate, rest)
  | '@' :: rest => (indirect, rest)
  | '&' :: rest => (absolute, rest)
  | token => (direct, token)

/-- The flags of a mode fill two bits. -/
theorem flags_lt (mode : Mode) : mode.flags < 4 := by cases mode <;> decide

/-- The two flag bits of a mode give it back. -/
theorem ofFlags_flags (mode : Mode) : ofFlags ⟨mode.flags, mode.flags_lt⟩ = mode := by
  cases mode <;> rfl

/-- Two bits are the flag bits of their mode. -/
theorem flags_ofFlags (bits : Fin 4) : (ofFlags bits).flags = bits := by
  revert bits
  decide

/-- A mark and the token behind it are told apart, unless the mark is missing and the token carries
one itself. -/
theorem splitMark_append (mode : Mode) (token : List Char)
    (h : mode = direct → splitMark token = (direct, token)) :
    splitMark (mode.mark ++ token) = (mode, token) := by
  cases mode
  · exact h rfl
  all_goals rfl

end Mode

end AccumulatorMachine

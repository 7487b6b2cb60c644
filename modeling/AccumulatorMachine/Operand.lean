import AccumulatorMachine.Fault

/-!
# Operands

The word that an argument designates under an addressing mode, and where it is kept.

## Main definitions

* `Operand` — a word, and the address of the cell that holds it when it is kept in one.
* `Mode.resolve` — the operand of an argument.
-/

set_option autoImplicit false

namespace AccumulatorMachine

/-- The word that an argument designates. -/
structure Operand where
  /-- The address of the cell that holds the word; none when the argument is the word. -/
  target : Option Int32
  /-- The word. -/
  value : Int32
deriving DecidableEq

/-- The operand that an argument designates. The `absolute` mode designates the same cell as the
`direct` mode; they differ only in what a jump makes of the word. -/
def Mode.resolve (mode : Mode) (arg : Int32) (m : Memory) : Except ResolutionError Operand :=
  match mode with
  | .direct | .absolute =>
    match m.readData arg with
    | .error e => .error ⟨e⟩
    | .ok value => .ok ⟨some arg, value⟩
  | .immediate => .ok ⟨none, arg⟩
  | .indirect =>
    match m.readData arg with
    | .error e => .error ⟨e⟩
    | .ok address =>
      match m.readData address with
      | .error e => .error ⟨e⟩
      | .ok value => .ok ⟨some address, value⟩

end AccumulatorMachine

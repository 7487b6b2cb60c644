/-!
# Operations

The fourteen operations of the machine, their groups in an opcode and their mnemonics.

## Main definitions

* `Operation` — the operations.
* `Operation.group`, `Operation.ofGroup?` — the number of an operation in an opcode, and back.
* `Operation.mnemonic`, `Operation.ofMnemonic?` — its name in a source text, and back.
* `Operation.takesArgument` — whether a source text gives the operation an argument.

## Main results

* `Operation.ofGroup?_eq_some_iff`, `Operation.ofMnemonic?_eq_some_iff` — the two ways back find an
  operation exactly from its own group and mnemonic.
-/

set_option autoImplicit false

namespace AccumulatorMachine

/-- The operations, in the order of their groups. -/
inductive Operation where
  | nop | not | halt | lod | sto | add | sub | mul | div | and | jump | jmpz | cmpl | cmpz
deriving DecidableEq

namespace Operation

/-- Every operation, in the order of their groups. -/
def all : List Operation :=
  [nop, not, halt, lod, sto, add, sub, mul, div, and, jump, jmpz, cmpl, cmpz]

/-- The number of an operation in an opcode. -/
def group : Operation → Nat
  | nop => 0
  | not => 1
  | halt => 2
  | lod => 3
  | sto => 4
  | add => 5
  | sub => 6
  | mul => 7
  | div => 8
  | and => 9
  | jump => 10
  | jmpz => 11
  | cmpl => 12
  | cmpz => 13

/-- The name of an operation in a source text. -/
def mnemonic : Operation → String
  | nop => "NOP"
  | not => "NOT"
  | halt => "HALT"
  | lod => "LOD"
  | sto => "STO"
  | add => "ADD"
  | sub => "SUB"
  | mul => "MUL"
  | div => "DIV"
  | and => "AND"
  | jump => "JUMP"
  | jmpz => "JMPZ"
  | cmpl => "CMPL"
  | cmpz => "CMPZ"

/-- The operation of a group. -/
def ofGroup? (n : Nat) : Option Operation := all.find? (·.group == n)

/-- The operation with a given mnemonic, spelled in upper case. -/
def ofMnemonic? (text : List Char) : Option Operation := all.find? (·.mnemonic.toList == text)

/-- Whether a source text gives the operation an argument. -/
def takesArgument : Operation → Bool
  | nop | not | halt => false
  | _ => true

/-- A number is the group of the operation found for it, and of no other. -/
theorem ofGroup?_eq_some_iff {n : Nat} {op : Operation} :
    ofGroup? n = some op ↔ op.group = n := by
  constructor
  · intro h
    simpa using List.find?_some h
  · rintro rfl
    cases op <;> rfl

/-- A text is the mnemonic of the operation found for it, and of no other. -/
theorem ofMnemonic?_eq_some_iff {text : List Char} {op : Operation} :
    ofMnemonic? text = some op ↔ op.mnemonic.toList = text := by
  constructor
  · intro h
    simpa using List.find?_some h
  · rintro rfl
    cases op <;> decide

/-- Operations with one group are one operation. -/
theorem group_injective {a b : Operation} (h : a.group = b.group) : a = b :=
  Option.some.inj ((ofGroup?_eq_some_iff.2 h).symm.trans (ofGroup?_eq_some_iff.2 rfl))

/-- Operations with one mnemonic are one operation. -/
theorem mnemonic_injective {a b : Operation} (h : a.mnemonic = b.mnemonic) : a = b :=
  Option.some.inj
    ((ofMnemonic?_eq_some_iff.2 (congrArg String.toList h)).symm.trans
      (ofMnemonic?_eq_some_iff.2 rfl))

end Operation

end AccumulatorMachine

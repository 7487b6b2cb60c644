import AccumulatorMachine.Mode
import AccumulatorMachine.Operation
import AccumulatorMachine.Word

/-!
# Instructions

An instruction is an opcode byte and an argument word. From the most significant bit on, the opcode
holds the group of the operation (five bits), the flags of the addressing mode (two bits) and a parity
bit, which makes the number of ones in the byte even. An instruction may hold any byte: fetching
checks parity before anything else.

## Main definitions

* `Instruction` — an opcode and an argument.
* `Instruction.group`, `mode`, `parityBit` — the fields of the opcode.
* `Instruction.HasEvenParity` — the opcode passes the parity check.
* `Instruction.assemble` — the instruction of an operation, a mode and an argument.
* `Instruction.encode` — the same from a group and flag bits, which may be meaningless.
* `Instruction.text`, `Instruction.bits` — an instruction as assembly text and as bit patterns.

## Main results

* `Instruction.decode_assemble` — an assembled instruction holds its operation and its mode.
* `Instruction.assemble_hasEvenParity` — an assembled instruction passes the parity check.
-/

set_option autoImplicit false

namespace AccumulatorMachine

/-- An opcode byte and an argument word. -/
structure Instruction where
  /-- Group, flags and parity bit. -/
  opcode : UInt8
  /-- The argument. -/
  arg : Int32
deriving DecidableEq

/-- Why an instruction cannot be encoded or decoded. -/
inductive EncodingError where
  /-- No operation has this group. -/
  | unknownGroup (group : Nat)
  /-- The flags are no two bits. -/
  | wideFlags (flags : Nat)
  /-- The opcode has an odd number of ones. -/
  | parity (opcode : UInt8)
deriving DecidableEq

/-- The complaint about an opcode with an odd number of ones. -/
def parityMessage (opcode : UInt8) : String :=
  "this instruction is corrupted, opcode 0b" ++ Numeral.binary 8 opcode.toNat ++
    " fails the parity check"

/-- The wording of an encoding error. -/
def EncodingError.message : EncodingError → String
  | .unknownGroup group =>
    "operation group " ++ Numeral.decimal group ++ " is not a known operation"
  | .wideFlags flags =>
    "addressing flags 0b" ++ Numeral.binary 1 flags ++ " do not fit in two bits"
  | .parity opcode => parityMessage opcode

namespace Instruction

/-! ## The fields of an opcode -/

/-- The group of the operation. -/
def group (i : Instruction) : Nat := i.opcode.toNat / 8

/-- The addressing mode. -/
def mode (i : Instruction) : Mode :=
  Mode.ofFlags ⟨i.opcode.toNat / 2 % 4, Nat.mod_lt _ (by decide)⟩

/-- The parity bit. -/
def parityBit (i : Instruction) : Nat := i.opcode.toNat % 2

/-- The number of ones among the low bits of a number. -/
def ones : (width : Nat) → (n : Nat) → Nat
  | 0, _ => 0
  | width + 1, n => n % 2 + ones width (n / 2)

/-- The opcode has an even number of ones. -/
def HasEvenParity (i : Instruction) : Prop := ones 8 i.opcode.toNat % 2 = 0

/-- Even parity is one comparison of numbers. -/
instance (i : Instruction) : Decidable i.HasEvenParity :=
  inferInstanceAs (Decidable (ones 8 i.opcode.toNat % 2 = 0))

/-- Refuses an opcode with an odd number of ones. -/
def checkParity (i : Instruction) : Except EncodingError Unit :=
  if i.HasEvenParity then .ok () else .error (.parity i.opcode)

/-- The operation and the mode of an instruction; parity plays no part. -/
def decode (i : Instruction) : Except EncodingError (Operation × Mode) :=
  match Operation.ofGroup? i.group with
  | none => .error (.unknownGroup i.group)
  | some op => .ok (op, i.mode)

/-! ## Building instructions -/

/-- The opcode of an operation and a mode, with the parity bit that makes the number of ones even. -/
def opcodeOf (op : Operation) (mode : Mode) : UInt8 :=
  let fields := op.group * 8 + mode.flags * 2
  UInt8.ofNat (fields + ones 8 fields % 2)

/-- The instruction of an operation, a mode and an argument. -/
def assemble (op : Operation) (mode : Mode) (arg : Int32) : Instruction := ⟨opcodeOf op mode, arg⟩

/-- The instruction of a group, flag bits and an argument. An unknown group is reported before flags
that are no two bits. -/
def encode (group flags : Nat) (arg : Int32) : Except EncodingError Instruction :=
  match Operation.ofGroup? group with
  | none => .error (.unknownGroup group)
  | some op =>
    if h : flags < 4 then .ok (assemble op (Mode.ofFlags ⟨flags, h⟩) arg)
    else .error (.wideFlags flags)

/-! ## Written instructions -/

/-- An instruction as assembly text: the mnemonic, two blanks, the mark of the mode, and the argument
as a signed number in base 16. -/
def text (i : Instruction) : String :=
  let name := match Operation.ofGroup? i.group with
    | some op => op.mnemonic
    | none => "???"
  name ++ "  " ++ String.ofList i.mode.mark ++ (if i.arg < 0 then "-" else "") ++
    Numeral.upperHex 1 i.arg.toInt.natAbs

/-- The bit pattern of the opcode in base 2 and that of the argument in base 16. -/
def bits (i : Instruction) : String :=
  Numeral.binary 8 i.opcode.toNat ++ "  " ++ Numeral.upperHex 1 (Word.pattern i.arg)

/-! ## Assembled instructions -/

/-- The three fields of an assembled opcode, read back: the group of the operation, the flags of the
mode, and an even number of ones. -/
theorem opcodeOf_fields (op : Operation) (mode : Mode) :
    (opcodeOf op mode).toNat / 8 = op.group ∧
      Mode.ofFlags ⟨(opcodeOf op mode).toNat / 2 % 4, Nat.mod_lt _ (by decide)⟩ = mode ∧
      ones 8 (opcodeOf op mode).toNat % 2 = 0 := by
  cases op <;> cases mode <;> decide

/-- An assembled instruction holds the group of its operation. -/
@[simp] theorem assemble_group (op : Operation) (mode : Mode) (arg : Int32) :
    (assemble op mode arg).group = op.group := (opcodeOf_fields op mode).1

/-- An assembled instruction holds its mode. -/
@[simp] theorem assemble_mode (op : Operation) (mode : Mode) (arg : Int32) :
    (assemble op mode arg).mode = mode := (opcodeOf_fields op mode).2.1

/-- An assembled instruction passes the parity check. -/
theorem assemble_hasEvenParity (op : Operation) (mode : Mode) (arg : Int32) :
    (assemble op mode arg).HasEvenParity := (opcodeOf_fields op mode).2.2

/-- An assembled instruction holds its operation and its mode. -/
theorem decode_assemble (op : Operation) (mode : Mode) (arg : Int32) :
    (assemble op mode arg).decode = .ok (op, mode) := by
  simp [decode, Operation.ofGroup?_eq_some_iff.2 rfl]

end Instruction

end AccumulatorMachine

import AccumulatorMachine.Memory

/-!
# Faults

Why a cycle of the machine fails. Access to memory fails in one of two ways: while an operand is
resolved from its addressing mode, or at any other point of the cycle.

## Main definitions

* `ResolutionError` — why an operand cannot be resolved.
* `Fault` — why a cycle fails.
* `Fault.message` — the wording of a fault.
-/

set_option autoImplicit false

namespace AccumulatorMachine

/-- Why an operand cannot be resolved: a cell on the way to it is outside the data. -/
structure ResolutionError where
  /-- The refused access. -/
  cause : MemoryError
deriving DecidableEq

/-- The wording of a resolution error. -/
def ResolutionError.message (e : ResolutionError) : String :=
  "memory error during addressing mode resolution: " ++ e.cause.message

/-- Why a cycle fails. -/
inductive Fault where
  /-- The opcode has an odd number of ones. -/
  | parity (opcode : UInt8)
  /-- The operation does not accept the addressing mode. -/
  | illegalMode (op : Operation) (mode : Mode)
  /-- No operation has the group of the opcode. -/
  | unknownOperation (opcode : UInt8)
  /-- The divisor is zero. -/
  | zeroDivisor
  /-- An access to memory is refused. -/
  | memory (cause : MemoryError)
  /-- The operand cannot be resolved. -/
  | resolution (cause : ResolutionError)
  /-- The machine has halted before. -/
  | halted
deriving DecidableEq

/-- The wording of a fault. -/
def Fault.message : Fault → String
  | .parity opcode => parityMessage opcode
  | .illegalMode op mode =>
    "illegal flags for this instruction: " ++ op.mnemonic ++ " (" ++ Numeral.binary 2 mode.flags ++
      ")"
  | .unknownOperation opcode =>
    "opcode 0b" ++ Numeral.binary 8 opcode.toNat ++ " does not designate a known operation (group " ++
      Numeral.decimal (opcode.toNat / 8 : Nat) ++ ")"
  | .zeroDivisor => "cannot divide by zero"
  | .memory cause => "memory error during microcode operation: " ++ cause.message
  | .resolution cause => "resolution error caught in microcode operation: " ++ cause.message
  | .halted => "the machine is halted, it must be cleared before stepping"

end AccumulatorMachine

import AccumulatorMachine.Machine.Access

/-!
# The machine

A processor that stops for good. It halts when a `HALT` succeeds or a cycle fails; from then on it
refuses every step until it is cleared. An observer may be told of each halt.

## Main definitions

* `Machine` — a processor, whether it has halted, and its observer.
* `Machine.step` — one step: its result, the machine afterwards, and the observers called.
* `Machine.clear` — back to the start, with the same observer.
* `Request`, `Response`, `Machine.handle` — everything that can be asked of a machine, as data.

## Implementation notes

An observer is a number that stands for whoever is told, and a step lists its calls. So "called exactly
once" is a statement about that list, not about a hidden state.
-/

set_option autoImplicit false

namespace AccumulatorMachine

/-- Someone who is told when a machine halts. -/
abbrev Observer : Type := Nat

/-- A processor that stops for good. -/
structure Machine extends Processor where
  /-- Whether the machine has halted. -/
  halted : Bool := false
  /-- Who is told when it halts. -/
  observer : Option Observer := none
deriving DecidableEq

/-- What a step of a machine gives. -/
structure Transition where
  /-- The report of the instruction, or why there is none. -/
  result : Except Fault LogLine
  /-- The machine afterwards. -/
  machine : Machine
  /-- The observers told of a halt, in order. -/
  calls : List Observer := []

namespace Machine

/-- A machine at the start, with an observer. -/
def new (observer : Option Observer) : Machine := { observer := observer }

/-- Replaces the processor. -/
def withProcessor (m : Machine) (p : Processor) : Machine := { m with toProcessor := p }

/-- Halts a machine that gives a result, and tells its observer. -/
def halt (m : Machine) (result : Except Fault LogLine) : Transition where
  result := result
  machine := { m with halted := true }
  calls := m.observer.toList

/-- One step. A fault halts the machine, with whatever the cycle has done to its processor by then. -/
def step (m : Machine) : Transition :=
  if m.halted then { result := .error .halted, machine := m }
  else
    match Microcode.cycle.run m.toProcessor with
    | .error e p => (m.withProcessor p).halt (.error e)
    | .ok line p =>
      if line.op = .halt then (m.withProcessor p).halt (.ok line)
      else { result := .ok line, machine := m.withProcessor p }

/-- Clears memory and registers; the machine can step again. -/
def clear (m : Machine) : Machine where
  registers := {}
  memory := m.memory.clearCode.clearData
  observer := m.observer

/-- The registers, whether the machine has halted, and its memory, on one line. -/
def summary (m : Machine) : String :=
  "Machine " ++ m.registers.table ++ " halted=" ++ (if m.halted then "true" else "false") ++ " " ++
    m.memory.summary

end Machine

/-! ## Requests -/

/-- Everything that can be asked of a machine. -/
inductive Request where
  /-- One step. -/
  | step
  /-- Clears the machine. -/
  | clear
  /-- Replaces the observer. -/
  | observe (observer : Observer)
  /-- An operation on registers and memory; halted machines allow them all. -/
  | access (a : Access)
deriving DecidableEq

/-- What a machine answers. -/
inductive Response where
  /-- The result of a step. -/
  | step (result : Except Fault LogLine)
  /-- The result of an operation on registers and memory. -/
  | access (result : Except MemoryError Answer)

/-- The answer to a request, with the machine afterwards and the observers called. -/
structure Reply where
  /-- The answer. -/
  response : Response
  /-- The machine afterwards. -/
  machine : Machine
  /-- The observers told of a halt, in order. -/
  calls : List Observer := []

namespace Machine

/-- Answers a request. Only a step calls observers. -/
def handle (m : Machine) : Request → Reply
  | .step =>
    let t := m.step
    { response := .step t.result, machine := t.machine, calls := t.calls }
  | .clear => { response := .access (.ok .done), machine := m.clear }
  | .observe observer =>
    { response := .access (.ok .done), machine := { m with observer := some observer } }
  | .access a =>
    let (result, p) := m.toProcessor.perform a
    { response := .access result, machine := m.withProcessor p }

/-- Answers requests one after the other. -/
def serve (m : Machine) : List Request → List Reply
  | [] => []
  | r :: rs =>
    let reply := m.handle r
    reply :: reply.machine.serve rs

end Machine

end AccumulatorMachine

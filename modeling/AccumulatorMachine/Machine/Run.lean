import AccumulatorMachine.Condition

/-!
# Runs

A run steps a machine until it halts, a condition holds, or a number of steps is used up. The condition
is looked at after each step, never before the first; on a halted machine it is not looked at.

## Main definitions

* `Run` — the log lines of a run, and the fault that ended it.
* `Machine.runFor` — a run of at most so many steps. If the condition cannot be evaluated, the run ends
  there and has no log lines to show.
-/

set_option autoImplicit false

namespace AccumulatorMachine

/-- What a run has to show. -/
structure Run where
  /-- The reports of the steps that succeeded, in order. -/
  lines : List LogLine
  /-- Why the last step failed, if it did. -/
  fault : Option Fault := none

namespace Machine

/-- Goes on with a run that has given the lines `done`, for at most so many steps. -/
def runOn (stop : Condition) (done : Array LogLine) (m : Machine) :
    (steps : Nat) → Except CellError Run × Machine
  | 0 => (.ok { lines := done.toList }, m)
  | steps + 1 =>
    let t := m.step
    match t.result with
    | .error e => (.ok { lines := done.toList, fault := some e }, t.machine)
    | .ok line =>
      let done := done.push line
      if t.machine.halted then (.ok { lines := done.toList }, t.machine)
      else
        match stop.shortfall t.machine with
        | .error e => (.error e, t.machine)
        | .ok none => (.ok { lines := done.toList }, t.machine)
        | .ok (some _) => runOn stop done t.machine steps

/-- A run of at most so many steps, from a given address if there is one. -/
def runFor (start : Option Int32) (stop : Condition) (steps : Nat) (m : Machine) :
    Except CellError Run × Machine :=
  let registers := match start with
    | none => m.registers
    | some address => { m.registers with counter := address }
  runOn stop #[] { m with registers := registers } steps

end Machine

end AccumulatorMachine

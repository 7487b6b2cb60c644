import AccumulatorMachine.Proofs.UnseenProgram
import AccumulatorMachine.Script.Session

/-!
# No script tells the program size

A memory remembers how far its program has been written. The number is shown where a machine is
summarised, and nowhere else: no access answers with it, no step and no condition looks at it, and no
token has it in it. So two machines that differ in their program sizes only, go on to do so, and a
session goes on from one of them as it does from the other.

The sizes need not stay different, nor keep their difference: writing a slot raises either to the number
of the slot. So each statement says that there is some size with which the two agree.

## Main definitions

* `Processor.withSize`, `Machine.withSize` — another program size.

## Main results

* `Machine.runOn_withSize` — a run does the same, and leaves another program size.
* `Script.execute_withSize`, `Script.obey_withSize` — so do commands and lines.
* `Script.Settings.runFrom_withSize` — so a session gives the same tokens and ends in the same way.
-/

set_option autoImplicit false

namespace AccumulatorMachine

/-! ## Accesses -/

namespace Processor

/-- A processor with another program size. -/
def withSize (p : Processor) (size : Nat) : Processor :=
  { p with memory := p.memory.setProgramSize size }

/-- No access answers with the program size. -/
lemma perform_withSize (p : Processor) (size : Nat) (a : Access) :
    ∃ size', (p.withSize size).perform a = ((p.perform a).1, (p.perform a).2.withSize size') := by
  cases a with
  | writeCode index i =>
    simp only [perform, Memory.writeCode]
    by_cases hindex : index < codeSize
    · simp only [dif_pos hindex]
      exact ⟨max size index, rfl⟩
    · simp only [dif_neg hindex]
      exact ⟨size, rfl⟩
  | writeData address value =>
    simp only [perform, Memory.writeData]
    refine ⟨size, ?_⟩
    cases position? dataSize address <;> rfl
  | readCode _ | readData _ | readCodeRange _ _ | readDataRange _ _ | clearData | setAccumulator _
  | setCounter _ | resetRegisters | advance => exact ⟨size, rfl⟩
  | clearCode => exact ⟨0, rfl⟩
  | setProgramSize size' => exact ⟨size', rfl⟩

/-- Several accesses are carried out alike, and one of them is refused in both cases or in none. -/
lemma performAll_withSize (p : Processor) (size : Nat) (as : List Access) :
    ∃ size', (p.withSize size).performAll as =
      ((p.performAll as).1, (p.performAll as).2.withSize size') := by
  induction as generalizing p size with
  | nil => exact ⟨size, rfl⟩
  | cons a as ih =>
    obtain ⟨size', ha⟩ := p.perform_withSize size a
    rw [performAll, performAll, ha]
    cases p.perform a with
    | mk result q =>
      cases result with
      | error e => exact ⟨size', rfl⟩
      | ok answer => exact ih q size'

end Processor

/-! ## Conditions -/

section Conditions

variable (m : Machine) (size : Nat)

/-- A machine with another program size. -/
def Machine.withSize : Machine := m.withProcessor (m.toProcessor.withSize size)

/-- No quantity is the program size. -/
lemma Quantity.value_withSize (q : Quantity) : q.value (m.withSize size) = q.value m := by
  cases q <;> rfl

/-- No term looks at the program size. -/
lemma Term.shortfall_withSize (t : Term) : t.shortfall (m.withSize size) = t.shortfall m := by
  cases t with
  | constant b | halted => rfl
  | compare left c right =>
    rw [shortfall, shortfall, left.value_withSize m size, right.value_withSize m size]

/-- No condition looks at the program size. -/
lemma Condition.shortfall_withSize (c : Condition) :
    c.shortfall (m.withSize size) = c.shortfall m := by
  induction c with
  | term t => exact t.shortfall_withSize m size
  | and c t ih | or c t ih =>
    rw [shortfall, shortfall, ih, t.shortfall_withSize m size]

end Conditions

/-! ## Runs -/

namespace Machine

/-- A step does not look at the program size, and keeps it. -/
lemma step_withSize (m : Machine) (size : Nat) :
    (m.withSize size).step.result = m.step.result ∧
      (m.withSize size).step.machine = m.step.machine.withSize size := by
  have hstep : (m.withSize size).step = m.step.withProgram m.memory.code size :=
    step_withProgram fun _ _ _ => rfl
  have hcode : m.step.machine.memory.code = m.memory.code := (Replay.follows_step m).code
  rw [hstep]
  refine ⟨rfl, ?_⟩
  show m.step.machine.withProgram m.memory.code size = m.step.machine.withSize size
  rw [← hcode]
  rfl

/-- A run does the same, and leaves another program size. -/
lemma runOn_withSize (stop : Condition) (done : Array LogLine) (m : Machine) (size steps : Nat) :
    runOn stop done (m.withSize size) steps =
      ((runOn stop done m steps).1, (runOn stop done m steps).2.withSize size) := by
  induction steps generalizing done m with
  | zero => rfl
  | succ steps ih =>
    obtain ⟨hresult, hmachine⟩ := m.step_withSize size
    have hhalted : (m.step.machine.withSize size).halted = m.step.machine.halted := rfl
    rw [runOn, runOn]
    simp only [hresult, hmachine, hhalted, Condition.shortfall_withSize]
    cases m.step.result with
    | error e => rfl
    | ok line =>
      simp only
      split
      · rfl
      · cases stop.shortfall m.step.machine with
        | error e => rfl
        | ok why =>
          cases why with
          | none => rfl
          | some why => exact ih (done.push line) m.step.machine

end Machine

/-! ## Scripts -/

namespace Script

variable (files : Files) (steps : Nat) (m : Machine) (size : Nat)

/-- A machine is prepared alike, whatever its program size. -/
lemma prepare_withSize (accesses : List Access) (report : String) :
    ∃ size', prepare (m.withSize size) accesses report =
      ((prepare m accesses report).1, (prepare m accesses report).2.withSize size') := by
  obtain ⟨size', hall⟩ := m.toProcessor.performAll_withSize size accesses
  have hprocessor : (m.withSize size).toProcessor = m.toProcessor.withSize size := rfl
  refine ⟨size', ?_⟩
  rw [prepare, prepare, hprocessor, hall]
  cases m.toProcessor.performAll accesses with
  | mk result p => cases result <;> rfl

/-- No command looks at the program size. -/
lemma execute_withSize (c : Command) :
    ∃ size', c.execute files steps (m.withSize size) =
      ((c.execute files steps m).1, (c.execute files steps m).2.withSize size') := by
  cases c with
  | marker _ | checkSource _ | flushRegisters | setRegister _ _ => exact ⟨size, rfl⟩
  | flushMemory => exact ⟨0, rfl⟩
  | load file =>
    rw [Command.execute, Command.execute, loadImage, loadImage]
    cases (files file).lines with
    | error e => exact ⟨size, rfl⟩
    | ok reading =>
      simp only
      cases Image.ofReading reading with
      | error e => exact ⟨size, rfl⟩
      | ok image => exact prepare_withSize m size _ _
  | writeData address words =>
    rw [Command.execute, Command.execute, writeWords, writeWords]
    split
    · exact ⟨size, rfl⟩
    · exact prepare_withSize m size _ _
  | writeCode address instructions => exact prepare_withSize m size _ _
  | run start stop =>
    have hrun : (m.withSize size).runFor start stop steps =
        ((m.runFor start stop steps).1, (m.runFor start stop steps).2.withSize size) := by
      cases start with
      | none => exact Machine.runOn_withSize stop #[] m size steps
      | some address => exact Machine.runOn_withSize stop #[] (m.startingAt (some address)) size steps
    refine ⟨size, ?_⟩
    rw [Command.execute, Command.execute, hrun]
    cases m.runFor start stop steps with
    | mk result m' => cases result <;> rfl
  | claim c description =>
    refine ⟨size, ?_⟩
    rw [Command.execute, Command.execute, assertCondition, assertCondition,
      Condition.shortfall_withSize]

/-- No line looks at the program size. -/
lemma obey_withSize (line : ReadLine) :
    ∃ size', obey files steps (m.withSize size) line =
      ((obey files steps m line).1, (obey files steps m line).2.withSize size') := by
  cases line with
  | error e => exact ⟨size, rfl⟩
  | ok text =>
    rw [obey, obey]
    cases Command.ofLine text with
    | error e => exact ⟨size, rfl⟩
    | ok command =>
      cases command with
      | none => exact ⟨size, rfl⟩
      | some c =>
        -- A marker brings a new machine, whose program size is zero.
        obtain ⟨size', hbefore⟩ :
            ∃ size', c.before (m.withSize size) = (c.before m).withSize size' := by
          cases c with
          | marker description => exact ⟨0, rfl⟩
          | _ => exact ⟨size, rfl⟩
        obtain ⟨size'', hc⟩ := execute_withSize files steps (c.before m) size' c
        refine ⟨size'', ?_⟩
        simp only [hbefore, hc]

namespace Settings

variable (settings : Settings) (sent : Array Token)

/-- One line of a session is taken alike. -/
lemma take_withSize (line : ReadLine) :
    ∃ size', settings.take files (m.withSize size) sent line =
      (settings.take files m sent line).map fun next => (next.1.withSize size', next.2) := by
  obtain ⟨size', hline⟩ := obey_withSize files settings.steps m size line
  refine ⟨size', ?_⟩
  rw [take, take, hline]
  cases obey files settings.steps m line with
  | mk result m' =>
    cases result with
    | none => rfl
    | some result =>
      cases result with
      | error e => cases settings.stopOnFailure <;> rfl
      | ok token =>
        simp only
        cases settings.stopOnFailure <;> cases token.error? <;> rfl

/-- **No script tells the program size**: a session on any lines, conducted in any way, does not depend
on the program size that it begins with. -/
theorem runFrom_withSize (lines : List ReadLine) :
    settings.runFrom files (m.withSize size) sent lines = settings.runFrom files m sent lines := by
  induction lines generalizing m size sent with
  | nil => rfl
  | cons line rest ih =>
    obtain ⟨size', hline⟩ := take_withSize files m size settings sent line
    rw [runFrom, runFrom, hline]
    cases settings.take files m sent line with
    | error outcome => rfl
    | ok next => exact ih next.1 size' next.2

end Settings

end Script

end AccumulatorMachine

import AccumulatorMachine.Proofs.HaltNotices
import AccumulatorMachine.Proofs.PlanIsolation
import AccumulatorMachine.Proofs.TraceCompleteness

/-!
# Clearing is as good as a new machine

A machine that is cleared forgets all but its observer. So whatever is asked of it afterwards, it answers
as a new machine with this observer does, and it passes through the same states.

In a script, a line that flushes the memory clears the machine, and a marker brings a new one. No command
installs an observer, so that there is none for the cleared machine to keep, and the lines behind either
line give the same tokens.

## Main definitions

* `Script.IsMemoryFlush` — a line that clears the machine.

## Main results

* `Machine.clear_eq_new` — a cleared machine is a new one with the observer that it had.
* `Script.observer_machineAfter` — a script installs no observer.
* `Script.clearing_starts_over` — whatever follows, it does not know of what was before.
-/

set_option autoImplicit false

namespace AccumulatorMachine

/-! ## The machine -/

namespace Machine

/-- A cleared machine is a new one with the observer that it had. -/
lemma clear_eq_new (m : Machine) : m.clear = new m.observer := by
  rw [clear, Memory.clearData_clearCode]
  rfl

/-- A run keeps the observer. -/
lemma observer_runOn (stop : Condition) (done : Array LogLine) (m : Machine) (steps : Nat) :
    (runOn stop done m steps).2.observer = m.observer := by
  induction steps generalizing done m with
  | zero => rfl
  | succ steps ih =>
    have hstep := observer_step m
    rw [runOn]
    dsimp only
    split
    · exact hstep
    · split
      · exact hstep
      · split
        · exact hstep
        · exact hstep
        · exact (ih _ _).trans hstep

end Machine

/-! ## Scripts -/

namespace Script

/-- A line that clears the machine. -/
def IsMemoryFlush (line : ReadLine) : Prop :=
  ∃ text, line = .ok text ∧ Command.ofLine text = .ok (some .flushMemory)

variable (wording : Wording) (files : Files) (steps : Nat)

/-- Preparing a machine keeps the observer. -/
lemma observer_prepare (m : Machine) (accesses : List Access) (report : String) :
    (prepare m accesses report).2.observer = m.observer := by
  rw [prepare]
  cases m.toProcessor.performAll accesses with
  | mk result p => cases result <;> rfl

/-- A command keeps the observer. -/
lemma observer_execute (m : Machine) (c : Command) :
    (c.execute files steps m).2.observer = m.observer := by
  cases c with
  | marker | flushMemory | checkSource | flushRegisters | setRegister | claim => rfl
  | load file =>
    rw [Command.execute, loadImage]
    split
    · rfl
    · split
      · rfl
      · exact observer_prepare m _ _
  | writeData address words =>
    rw [Command.execute, writeWords]
    split
    · rfl
    · exact observer_prepare m _ _
  | writeCode address instructions => exact observer_prepare m _ _
  | run start stop =>
    have hrun : (m.runFor start stop steps).2.observer = m.observer :=
      Machine.observer_runOn stop #[] _ steps
    rw [Command.execute]
    split
    · rename_i h
      rwa [h] at hrun
    · rename_i h
      rwa [h] at hrun

/-- No line of a script installs an observer. -/
lemma observer_obey {m : Machine} (h : m.observer = none) (line : ReadLine) :
    (obey files steps m line).2.observer = none := by
  cases line with
  | error e => exact h
  | ok text =>
    rw [obey]
    split
    · exact h
    · exact h
    · rename_i c _
      have hbefore : (c.before m).observer = none := by
        cases c with
        | marker description => rfl
        | _ => exact h
      exact (observer_execute files steps (c.before m) c).trans hbefore

/-- A script installs no observer. -/
lemma observer_machineAfter (lines : List ReadLine) :
    (machineAfter files steps {} lines).observer = none := by
  induction lines using List.reverseRecOn with
  | nil => rfl
  | append_singleton lines line ih =>
    rw [machineAfter_append]
    exact observer_obey files steps ih line

/-- A line that clears the machine leaves a new one, unless there is an observer. -/
lemma obey_memoryFlush {m : Machine} (h : m.observer = none) {flush : ReadLine}
    (hflush : IsMemoryFlush flush) : obey files steps m flush = (some (.ok (.setup [])), {}) := by
  obtain ⟨text, rfl, hline⟩ := hflush
  have hclear : m.clear = {} := by rw [Machine.clear_eq_new, h]; rfl
  rw [obey, hline]
  show (_, m.clear) = _
  rw [hclear]
  rfl

/-- Behind a line that leaves a new machine, a session goes on as if it began there. -/
lemma tokens_runLines_append {before : List ReadLine} {line : ReadLine} {t : Token}
    (h : obey files steps (machineAfter files steps {} before) line = (some (.ok t), {}))
    (rest : List ReadLine) :
    ((Settings.goOn wording steps).runLines files (before ++ line :: rest)).tokens =
      ((Settings.goOn wording steps).runLines files before).tokens ++
        t :: ((Settings.goOn wording steps).runLines files rest).tokens := by
  have hall : ∀ lines, ((Settings.goOn wording steps).runLines files lines).tokens =
      tokensFrom wording files steps {} lines := by
    intro lines
    rw [Settings.runLines, Settings.runFrom_goOn]
    rfl
  rw [hall, hall, hall, tokensFrom_append, tokensFrom, h]
  rfl

end Script

open Machine Script in
/-- **Clearing is as good as a new machine.** Whatever has been asked of a machine, once it is cleared it
is a new machine with the observer that is installed by then, and it answers further requests as such a
machine does. Whatever the lines of a script have done, in a session that goes on after failures the
lines behind one that flushes the memory give the tokens that they give behind a marker, which are those
of a session of their own. -/
theorem Script.clearing_starts_over :
    (∀ (m : Machine) (earlier later : List Request),
      let fresh := Machine.new (installed m.observer earlier)
      m.after (earlier ++ [.clear]) = fresh ∧
        m.serve (earlier ++ .clear :: later) =
          m.serve earlier ++
            { response := .access (.ok .done), machine := fresh } :: fresh.serve later) ∧
      ∀ (wording : Wording) (files : Files) (steps : Nat) (before rest : List ReadLine)
          (flush marker : ReadLine),
        IsMemoryFlush flush → IsMarker marker →
        ∃ description,
          ((Settings.goOn wording steps).runLines files (before ++ flush :: rest)).tokens =
              ((Settings.goOn wording steps).runLines files before).tokens ++
                .setup [] :: ((Settings.goOn wording steps).runLines files rest).tokens ∧
            ((Settings.goOn wording steps).runLines files (before ++ marker :: rest)).tokens =
              ((Settings.goOn wording steps).runLines files before).tokens ++
                .marker description :: ((Settings.goOn wording steps).runLines files rest).tokens := by
  constructor
  · intro m earlier later fresh
    have hclear : (m.after earlier).clear = fresh := by rw [clear_eq_new, observer_after]
    refine ⟨?_, ?_⟩
    · rw [Machine.after, List.foldl_append]
      exact hclear
    · rw [serve_append, serve, handle, hclear]
  · intro wording files steps before rest flush marker hflush hmarker
    have hobserver := observer_machineAfter files steps before
    obtain ⟨description, hobey⟩ := obey_marker files steps hmarker
    exact ⟨description,
      tokens_runLines_append wording files steps (obey_memoryFlush files steps hobserver hflush) rest,
      tokens_runLines_append wording files steps (hobey _) rest⟩

open Script in
/-- A script that sets a register and halts its machine by a fault. Behind a flush nothing is left of
this, and nothing behind a marker either. -/
theorem Script.clearing_starts_over_fault :
    ∃ before rest : List ReadLine, ∃ flush marker : ReadLine,
      let files : Files := fun _ => .directory
      let shown : List Token :=
        [.assertion (some "the machine is not halted") "stopped", .assertion none "zero"]
      IsMemoryFlush flush ∧ IsMarker marker ∧ (machineAfter files 10 {} before).halted = true ∧
        ∀ wording, ((Settings.goOn wording 10).runLines files (before ++ flush :: rest)).tokens =
            ((Settings.goOn wording 10).runLines files before).tokens ++ .setup [] :: shown ∧
          ∃ description,
            ((Settings.goOn wording 10).runLines files (before ++ marker :: rest)).tokens =
              ((Settings.goOn wording 10).runLines files before).tokens ++
                .marker description :: shown := by
  let files : Files := fun _ => .directory
  let before : List ReadLine := [.ok "registers set A=0x5".toList, .ok "run".toList]
  let rest : List ReadLine :=
    [.ok "assert halted $$stopped$$".toList, .ok "assert A = 0x0 $$zero$$".toList]
  let flush : ReadLine := .ok "memory flush".toList
  let marker : ReadLine := .ok "marker $$b$$".toList
  have hflush : IsMemoryFlush flush := ⟨_, rfl, by decide +kernel⟩
  have hmarker : IsMarker marker := ⟨_, "b", rfl, by decide +kernel⟩
  refine ⟨before, rest, flush, marker, hflush, hmarker, by decide +kernel, fun wording => ?_⟩
  have hrest : ((Settings.goOn wording 10).runLines files rest).tokens =
      [.assertion (some "the machine is not halted") "stopped", .assertion none "zero"] := rfl
  obtain ⟨description, hafterFlush, hafterMarker⟩ :=
    clearing_starts_over.2 wording files 10 before rest flush marker hflush hmarker
  rw [hrest] at hafterFlush hafterMarker
  exact ⟨hafterFlush, description, hafterMarker⟩

end AccumulatorMachine

import AccumulatorMachine.Proofs.BoundedRuns

/-!
# Runs can be interrupted and resumed

A run without a condition has three ways to end: its steps are used up, a `HALT` succeeds, or a step
fails. The last two halt the machine, and a machine that has halted is not changed by further steps, nor
does it log any. So it makes no difference to the machine and to the log that a run ends early. Such a
run leaves what all of its steps in a row leave, and two runs in a row are one run with the steps of both.

Only the fault of a run knows where it has ended. A `HALT` leaves a run without a fault, but a run on a
machine that has halted faults at once.

## Main definitions

* `Machine.faultWithin` — the fault with which a run without a condition ends.

## Main results

* `Machine.runOn_neverStop` — a run without a condition takes all of its steps.
* `Machine.stepped_add`, `Machine.log_add`, `Machine.faultWithin_add` — some steps, and then others.
* `Script.interrupted_run_resumes` — two commands that run, and one with the steps of both.
-/

set_option autoImplicit false

namespace AccumulatorMachine

open Script

namespace Machine

variable {m : Machine}

/-! ## A machine that has halted -/

/-- A machine that has halted is not changed by any number of steps. -/
lemma stepped_of_halted (h : m.halted = true) (n : Nat) : m.stepped n = m := by
  induction n with
  | zero => rfl
  | succ n ih => rw [stepped, ih, step_of_halted h]

/-- None of these steps is logged. -/
lemma log_of_halted (h : m.halted = true) (n : Nat) : m.log n = [] := by
  induction n with
  | zero => rfl
  | succ n ih =>
    rw [log, ih, stepped_of_halted h, step_of_halted h]
    rfl

/-! ## Some steps, and then others -/

/-- The steps of a machine are a first few and those of the machine behind them. -/
lemma stepped_add (m : Machine) (i j : Nat) : m.stepped (i + j) = (m.stepped i).stepped j := by
  induction j with
  | zero => rfl
  | succ j ih => rw [← Nat.add_assoc, stepped, stepped, ih]

/-- So are their log lines. -/
lemma log_add (m : Machine) (i j : Nat) : m.log (i + j) = m.log i ++ (m.stepped i).log j := by
  induction j with
  | zero => simp [log]
  | succ j ih => rw [← Nat.add_assoc, log, log, ih, stepped_add, List.append_assoc]

/-- The fault with which a run without a condition ends, if it may take so many steps and does not end
without one. -/
def faultWithin (m : Machine) : Nat → Option Fault
  | 0 => none
  | n + 1 =>
    match m.step.result with
    | .error e => some e
    | .ok _ => if m.step.machine.halted then none else m.step.machine.faultWithin n

/-- A run on a machine that has halted faults at its first step. -/
lemma faultWithin_of_halted (h : m.halted = true) {n : Nat} (hn : 0 < n) :
    m.faultWithin n = some .halted := by
  obtain ⟨n, rfl⟩ := Nat.exists_eq_add_of_le' hn
  rw [faultWithin, step_of_halted h]

/-- The fault of a run is that of its first steps if the machine halts there, and otherwise that of the
steps behind them.

**Proof sketch.** Induction on the number of first steps. Where the first of them fails or halts the
machine, both sides are settled by it, and so is the machine behind all of them. -/
lemma faultWithin_add (m : Machine) (i j : Nat) :
    m.faultWithin (i + j) =
      if 0 < i ∧ (m.stepped i).halted = true then m.faultWithin i
      else (m.stepped i).faultWithin j := by
  induction i generalizing m with
  | zero => simp [stepped]
  | succ i ih =>
    rw [Nat.add_right_comm, faultWithin, faultWithin, stepped_succ]
    cases hr : m.step.result with
    | error e =>
      have hhalted : m.step.machine.halted = true := by rw [machine_of_step_error hr]
      simp [stepped_of_halted hhalted, hhalted]
    | ok line =>
      cases hh : m.step.machine.halted with
      | true => simp [stepped_of_halted hh, hh]
      | false =>
        cases i with
        | zero => simp [stepped, hh]
        | succ i => simp [ih]

/-! ## Runs without a condition -/

/-- **A run without a condition takes all of its steps**, as far as the machine and the log can tell.

**Proof sketch.** Induction on the steps. Where the run ends early, the machine has halted, and the steps
that are left neither change it nor add to the log. -/
lemma runOn_neverStop (done : Array LogLine) (m : Machine) (steps : Nat) :
    runOn neverStop done m steps =
      (.ok { lines := done.toList ++ m.log steps, fault := m.faultWithin steps },
        m.stepped steps) := by
  induction steps generalizing done m with
  | zero => simp [runOn, log, faultWithin, stepped]
  | succ steps ih =>
    have hlog : m.log (steps + 1) = m.step.result.toOption.toList ++ m.step.machine.log steps := by
      rw [Nat.add_comm, log_add]
      rfl
    have hnever : neverStop.shortfall m.step.machine = .ok (some .never) := rfl
    rw [hlog, stepped_succ, runOn, faultWithin]
    cases hr : m.step.result with
    | error e =>
      have hhalted : m.step.machine.halted = true := by rw [machine_of_step_error hr]
      simp [stepped_of_halted hhalted, log_of_halted hhalted, Except.toOption]
    | ok line =>
      cases hh : m.step.machine.halted with
      | true => simp [stepped_of_halted hh, log_of_halted hh, Except.toOption]
      | false => simp [hnever, ih, Except.toOption]

end Machine

namespace Script

/-- A command that runs without a condition gives the log and the fault of its steps. -/
lemma Command.execute_run_neverStop (files : Files) (steps : Nat) (m : Machine)
    (start : Option Int32) :
    let s := m.startingAt start
    (run start neverStop).execute files steps m =
      (.ok (.run ((s.log steps).map LogLine.text) ((s.faultWithin steps).map Fault.message)),
        s.stepped steps) := by
  intro s
  rw [execute, Machine.runFor_eq_runOn, Machine.runOn_neverStop]
  rfl

/-- **A run can be interrupted and resumed.** A run without a condition that may take `i` steps, and
behind it one without a start address that may take `j` steps, leave the same machine as a single run that
may take `i + j` steps. The log lines of the single run are those of both. Its fault, or that it has none,
is told by the first run if this one may take a step and leaves a machine that has halted, and otherwise
by the second. In the first case the second run faults on the machine that has halted, unless it may take
no step.

**Proof sketch.** Each run takes all of its steps, so the machines, the log lines and the faults are those
of some steps and then others. -/
theorem interrupted_run_resumes (files : Files) (m : Machine) (start : Option Int32) (i j : Nat) :
    ∃ (lines lines' : List String) (fault fault' : Option String) (m₁ m₂ : Machine),
      (Command.run start neverStop).execute files i m = (.ok (.run lines fault), m₁) ∧
      (Command.run none neverStop).execute files j m₁ = (.ok (.run lines' fault'), m₂) ∧
      (Command.run start neverStop).execute files (i + j) m =
        (.ok (.run (lines ++ lines') (if 0 < i ∧ m₁.halted = true then fault else fault')), m₂) ∧
      (0 < i → m₁.halted = true → (fault' = some Fault.halted.message ↔ 0 < j)) := by
  set s := m.startingAt start with hs
  have hstart : (s.stepped i).startingAt none = s.stepped i := rfl
  refine ⟨_, _, _, _, _, _, Command.execute_run_neverStop files i m start,
    Command.execute_run_neverStop files j _ none, ?_, fun _ hhalted => ?_⟩
  · rw [Command.execute_run_neverStop, ← hs, hstart, Machine.log_add, Machine.stepped_add,
      Machine.faultWithin_add, List.map_append, apply_ite (Option.map Fault.message)]
  · rw [← hs] at hhalted ⊢
    rw [hstart]
    rcases Nat.eq_zero_or_pos j with rfl | hj
    · simp [Machine.faultWithin]
    · simp [Machine.faultWithin_of_halted hhalted hj, hj]

/-- A run that ends by a `HALT` at its second step, interrupted behind it. The second run faults, and the
single run does not. -/
theorem interrupted_run_resumes_after_halt :
    ∃ (m m₁ m₂ : Machine) (lines lines' : List String) (fault' : Option String),
      (Command.run (some 7) neverStop).execute (fun _ => .directory) 2 m =
        (.ok (.run lines none), m₁) ∧ m₁.halted = true ∧ lines.length = 2 ∧
      (Command.run none neverStop).execute (fun _ => .directory) 3 m₁ =
        (.ok (.run lines' fault'), m₂) ∧ fault' = some Fault.halted.message ∧
      (Command.run (some 7) neverStop).execute (fun _ => .directory) (2 + 3) m =
        (.ok (.run (lines ++ lines') none), m₂) := by
  let m : Machine :=
    { memory := { Memory.empty with
        code := (Memory.empty.code.set 7 (some (.assemble .nop .direct 0))).set 8
          (some (.assemble .halt .direct 0)) } }
  have hhalted : ((m.startingAt (some 7)).stepped 2).halted = true := by decide +kernel
  have hlog : ((m.startingAt (some 7)).log 2).length = 2 := by decide +kernel
  have hfault : (m.startingAt (some 7)).faultWithin 2 = none := by decide +kernel
  clear_value m
  obtain ⟨lines, lines', fault, fault', m₁, m₂, hfirst, hsecond, hwhole, hfault'⟩ :=
    interrupted_run_resumes (fun _ => .directory) m (some 7) 2 3
  have hrun := Command.execute_run_neverStop (fun _ => .directory) 2 m (some 7)
  simp only [hfirst, hfault, Prod.mk.injEq, Except.ok.injEq, Token.run.injEq, Option.map_none] at hrun
  obtain ⟨⟨rfl, rfl⟩, rfl⟩ := hrun
  rw [if_pos ⟨by decide, hhalted⟩] at hwhole
  exact ⟨m, _, m₂, _, lines', fault', hfirst, hhalted, by rw [List.length_map, hlog], hsecond,
    (hfault' (by decide) hhalted).2 (by decide), hwhole⟩

end Script

end AccumulatorMachine

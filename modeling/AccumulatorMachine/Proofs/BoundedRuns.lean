import AccumulatorMachine.Proofs.TraceReplay
import AccumulatorMachine.Script.Execution

/-!
# A run goes to the first reason to stop

A run has four reasons to stop: a step fails, the machine has halted, the condition holds, or it cannot
be evaluated. They are looked at behind each step, and the run goes on for as long as there is none and
steps are left. So a run is a number of steps in a row, and this number is the first at which there is a
reason to stop.

How many steps a run takes cannot be told from what it gives, as a condition that cannot be evaluated
leaves nothing to show. So the loop of a run is stated for anything that has a machine in it, and
followed on a machine that keeps a record of its steps.

## Main definitions

* `Machine.runWith` — the loop of a run, on anything that has a machine in it.
* `Recorder` — a machine that keeps a record of its steps.
* `Machine.StopsAt`, `Machine.IsRunLength` — the reasons to stop, and the number of steps of a run.

## Main results

* `Machine.runOn_eq_runWith` — a run is the loop on a machine.
* `Recorder.runWith_eq` — what the loop gives, and the steps that it takes.
* `Machine.run_stops_first` — so a command that runs stops at the first reason.
-/

set_option autoImplicit false

namespace AccumulatorMachine

/-! ## The loop -/

/-- The loop of a run, on anything that has a machine in it and can make it step. -/
def Machine.runWith {σ : Type} (step : σ → Except Fault LogLine × σ) (machine : σ → Machine)
    (stop : Condition) (done : Array LogLine) (s : σ) : (steps : Nat) → Except CellError Run × σ
  | 0 => (.ok { lines := done.toList }, s)
  | steps + 1 =>
    match step s with
    | (.error e, s) => (.ok { lines := done.toList, fault := some e }, s)
    | (.ok line, s) =>
      let done := done.push line
      if (machine s).halted then (.ok { lines := done.toList }, s)
      else
        match stop.shortfall (machine s) with
        | .error e => (.error e, s)
        | .ok none => (.ok { lines := done.toList }, s)
        | .ok (some _) => runWith step machine stop done s steps

/-- A machine that keeps a record of its steps. -/
structure Recorder where
  /-- The machine. -/
  machine : Machine
  /-- The results of the steps so far, in order. -/
  results : List (Except Fault LogLine) := []

/-- One step, which is put on record. -/
def Recorder.step (r : Recorder) : Except Fault LogLine × Recorder :=
  let t := r.machine.step
  (t.result, ⟨t.machine, r.results ++ [t.result]⟩)

namespace Machine

/-- A run is the loop on a machine. -/
lemma runOn_eq_runWith (stop : Condition) (done : Array LogLine) (m : Machine) (steps : Nat) :
    runOn stop done m steps =
      runWith (fun m => (m.step.result, m.step.machine)) id stop done m steps := by
  induction steps generalizing done m with
  | zero => rfl
  | succ steps ih =>
    rw [runOn, runWith]
    cases m.step.result with
    | error e => rfl
    | ok line =>
      cases hh : m.step.machine.halted with
      | true => simp [hh]
      | false =>
        simp only [hh, id_eq]
        cases stop.shortfall m.step.machine with
        | error e => rfl
        | ok why =>
          cases why with
          | none => rfl
          | some why => simp [ih]

/-- The loop does the same on two things that step alike. -/
lemma runWith_map {σ τ : Type} (step : σ → Except Fault LogLine × σ) (machine : σ → Machine)
    (step' : τ → Except Fault LogLine × τ) (machine' : τ → Machine) (f : σ → τ)
    (hstep : ∀ s, step' (f s) = ((step s).1, f (step s).2)) (hmachine : ∀ s, machine' (f s) = machine s)
    (stop : Condition) (done : Array LogLine) (s : σ) (steps : Nat) :
    runWith step' machine' stop done (f s) steps =
      ((runWith step machine stop done s steps).1, f (runWith step machine stop done s steps).2) := by
  induction steps generalizing done s with
  | zero => rfl
  | succ steps ih =>
    rw [runWith, runWith, hstep]
    cases step s with
    | mk result s =>
      cases result with
      | error e => rfl
      | ok line =>
        simp only [hmachine]
        split
        · rfl
        · cases stop.shortfall (machine s) with
          | error e => rfl
          | ok why =>
            cases why with
            | none => rfl
            | some why => exact ih _ _

/-! ## Steps in a row -/

/-- The results of some steps, in order. -/
def results (m : Machine) (n : Nat) : List (Except Fault LogLine) :=
  (List.range n).map fun i => (m.stepped i).step.result

/-- Steps in a row are a first one and those of the machine behind it. -/
lemma stepped_succ (m : Machine) (n : Nat) : m.stepped (n + 1) = m.step.machine.stepped n := by
  induction n with
  | zero => rfl
  | succ n ih =>
    rw [stepped, ih]
    rfl

/-- The results of some steps are that of the first one and those of the machine behind it. -/
lemma results_succ (m : Machine) (n : Nat) :
    m.results (n + 1) = m.step.result :: m.step.machine.results n := by
  rw [results, List.range_succ_eq_map, List.map_cons, List.map_map]
  refine congrArg₂ _ rfl (List.map_congr_left fun i _ => ?_)
  rw [Function.comp_apply, stepped_succ]

/-- The log of some steps has the lines of those that succeed. -/
lemma log_eq (m : Machine) (n : Nat) : m.log n = (m.results n).filterMap Except.toOption := by
  induction n with
  | zero => rfl
  | succ n ih =>
    rw [log, ih, results, results, List.range_succ, List.map_append, List.filterMap_append]
    cases h : (m.stepped n).step.result <;> simp [h, Except.toOption]

/-- No more lines are logged than steps are made. -/
lemma length_log_le (m : Machine) (n : Nat) : (m.log n).length ≤ n := by
  rw [log_eq]
  calc ((m.results n).filterMap Except.toOption).length
      ≤ (m.results n).length := List.length_filterMap_le _ _
    _ = n := by rw [results, List.length_map, List.length_range]

/-! ## Reasons to stop -/

/-- A reason to stop behind the step with a number: it fails, or it leaves a machine that has halted, or
one for which the condition holds or cannot be evaluated. -/
def StopsAt (stop : Condition) (m : Machine) (n : Nat) : Prop :=
  (∃ e, (m.stepped (n - 1)).step.result = .error e) ∨ (m.stepped n).halted = true ∨
    stop.shortfall (m.stepped n) = .ok none ∨ ∃ e, stop.shortfall (m.stepped n) = .error e

/-- The number of steps of a run that may take so many: the first with a reason to stop, or all. -/
def IsRunLength (stop : Condition) (m : Machine) (steps n : Nat) : Prop :=
  IsLeast {i | (1 ≤ i ∧ i ≤ steps) ∧ StopsAt stop m i} n ∨
    n = steps ∧ ∀ i, 1 ≤ i → i ≤ steps → ¬ StopsAt stop m i

/-- The fault of the last of some steps, if it fails. -/
def lastFault (m : Machine) (n : Nat) : Option Fault :=
  (m.results n).getLast?.bind fun
    | .error e => some e
    | .ok _ => none

/-- Why the condition cannot be evaluated behind the last of some steps, if it is looked at there. -/
def conditionError (stop : Condition) (m : Machine) (n : Nat) : Option CellError :=
  if n = 0 ∨ (m.stepped n).halted then none
  else
    match stop.shortfall (m.stepped n) with
    | .error e => some e
    | .ok _ => none

/-- What a run of some steps gives, behind lines that were given before. -/
def ending (stop : Condition) (done : List LogLine) (m : Machine) (n : Nat) : Except CellError Run :=
  match conditionError stop m n with
  | some e => .error e
  | none => .ok { lines := done ++ m.log n, fault := m.lastFault n }

section Step

variable {stop : Condition} {m : Machine}

/-- Behind the first step, a condition is met one step earlier as counted from the machine there. -/
lemma stopsAt_succ {n : Nat} (hn : 1 ≤ n) :
    StopsAt stop m (n + 1) ↔ StopsAt stop m.step.machine n := by
  obtain ⟨k, rfl⟩ := Nat.exists_eq_add_of_le' hn
  rw [StopsAt, StopsAt, Nat.add_sub_cancel, Nat.add_sub_cancel, stepped_succ, stepped_succ]

/-- A run stops behind its first step if there is a reason. -/
lemma isRunLength_one (steps : Nat) (h : StopsAt stop m 1) : IsRunLength stop m (steps + 1) 1 :=
  Or.inl ⟨⟨⟨le_rfl, by omega⟩, h⟩, fun _ hi => hi.1.1⟩

/-- A run without a reason to stop behind its first step goes on behind it. -/
lemma IsRunLength.succ {steps n : Nat} (h : ¬ StopsAt stop m 1)
    (hn : IsRunLength stop m.step.machine steps n) : IsRunLength stop m (steps + 1) (n + 1) := by
  rcases hn with ⟨⟨⟨hpos, hle⟩, hstops⟩, hfirst⟩ | ⟨rfl, hnever⟩
  · refine Or.inl ⟨⟨⟨by omega, by omega⟩, (stopsAt_succ hpos).2 hstops⟩, ?_⟩
    rintro i ⟨⟨hi, hi'⟩, hstops'⟩
    -- The first step is no reason to stop, so a reason comes later and is one of the rest of the run.
    rcases Nat.lt_or_ge 1 i with hlt | hge
    · obtain ⟨k, rfl⟩ := Nat.exists_eq_add_of_le' hi
      exact Nat.succ_le_succ (hfirst ⟨⟨by omega, by omega⟩, (stopsAt_succ (by omega)).1 hstops'⟩)
    · obtain rfl : i = 1 := by omega
      exact absurd hstops' h
  · refine Or.inr ⟨rfl, fun i hi hi' => ?_⟩
    rcases Nat.lt_or_ge 1 i with hlt | hge
    · obtain ⟨k, rfl⟩ := Nat.exists_eq_add_of_le' hi
      rw [stopsAt_succ (by omega)]
      exact hnever k (by omega) (by omega)
    · obtain rfl : i = 1 := by omega
      exact h

/-- What a run gives whose first step is no reason to stop. -/
lemma ending_succ {line : LogLine} (hline : m.step.result = .ok line) (h : ¬ StopsAt stop m 1)
    (done : List LogLine) (n : Nat) :
    ending stop done m (n + 1) = ending stop (done ++ [line]) m.step.machine n := by
  have hlog : m.log (n + 1) = line :: m.step.machine.log n := by
    rw [log_eq, log_eq, results_succ, hline]
    rfl
  cases n with
  | zero =>
    have hnone : conditionError stop m 1 = none := by
      rw [conditionError]
      split
      · rfl
      · cases hs : stop.shortfall (m.stepped 1) with
        | error e => exact absurd (Or.inr (Or.inr (Or.inr ⟨e, hs⟩))) h
        | ok why => rfl
    have hfault : m.lastFault 1 = none := by
      rw [lastFault, results_succ, hline]
      rfl
    rw [ending, hnone, hfault, hlog]
    simp [ending, conditionError, lastFault, results]
  | succ n =>
    have herror : conditionError stop m (n + 2) = conditionError stop m.step.machine (n + 1) := by
      rw [conditionError, conditionError, stepped_succ]
      simp
    have hfault : m.lastFault (n + 2) = m.step.machine.lastFault (n + 1) := by
      rw [lastFault, lastFault, results_succ, results_succ, List.getLast?_cons_cons]
    rw [ending, ending, herror, hfault, hlog, List.append_assoc]
    rfl

end Step

end Machine

/-- **What the loop of a run gives, and the steps that it takes.**

**Proof sketch.** Induction on the number of steps that are left. A first step with a reason to stop is
the whole run. Any other is put in front of the rest of the run, which starts with one step fewer and the
line of this step. -/
lemma Recorder.runWith_eq (stop : Condition) (done : Array LogLine) (m : Machine) (steps : Nat) :
    ∃ n, m.IsRunLength stop steps n ∧ ∀ before,
      Machine.runWith Recorder.step Recorder.machine stop done ⟨m, before⟩ steps =
        (m.ending stop done.toList n, ⟨m.stepped n, before ++ m.results n⟩) := by
  induction steps generalizing done m with
  | zero =>
    refine ⟨0, Or.inr ⟨rfl, fun i hi hi' => absurd hi' (by omega)⟩, fun before => ?_⟩
    simp [Machine.runWith, Machine.ending, Machine.conditionError, Machine.lastFault,
      Machine.results, Machine.log, Machine.stepped]
  | succ steps ih =>
    have hresults : m.results 1 = [m.step.result] := Machine.results_succ m 0
    simp only [Machine.runWith, Recorder.step]
    cases hr : m.step.result with
    | error e =>
      have hhalted : m.step.machine.halted = true := by rw [Machine.machine_of_step_error hr]
      refine ⟨1, Machine.isRunLength_one steps (Or.inl ⟨e, hr⟩), fun before => ?_⟩
      simp [Machine.ending, Machine.conditionError, Machine.lastFault, Machine.log_eq, hresults, hr,
        Machine.stepped, hhalted, Except.toOption]
    | ok line =>
      have hlog : m.log 1 = [line] := by
        rw [Machine.log_eq, hresults, hr]
        rfl
      have hfault : m.lastFault 1 = none := by
        rw [Machine.lastFault, hresults, hr]
        rfl
      cases hh : m.step.machine.halted with
      | true =>
        refine ⟨1, Machine.isRunLength_one steps (Or.inr (Or.inl hh)), fun before => ?_⟩
        simp [Machine.ending, Machine.conditionError, hlog, hfault, hresults, hr, Machine.stepped, hh]
      | false =>
        cases hs : stop.shortfall m.step.machine with
        | error e =>
          refine ⟨1, Machine.isRunLength_one steps (Or.inr (Or.inr (Or.inr ⟨e, hs⟩))),
            fun before => ?_⟩
          simp [Machine.ending, Machine.conditionError, hresults, hr, Machine.stepped, hh, hs]
        | ok why =>
          cases why with
          | none =>
            refine ⟨1, Machine.isRunLength_one steps (Or.inr (Or.inr (Or.inl hs))),
              fun before => ?_⟩
            simp [Machine.ending, Machine.conditionError, hlog, hfault, hresults, hr, Machine.stepped,
              hh, hs]
          | some why =>
            have hgoesOn : ¬ Machine.StopsAt stop m 1 := by
              simp [Machine.StopsAt, Machine.stepped, hr, hh, hs]
            obtain ⟨n, hn, hrun⟩ := ih (done.push line) m.step.machine
            refine ⟨n + 1, hn.succ hgoesOn, fun before => ?_⟩
            rw [Machine.ending_succ hr hgoesOn, Machine.stepped_succ, Machine.results_succ, hr]
            have hrest := hrun (before ++ [.ok line])
            rw [List.append_assoc, Array.toList_push] at hrest
            simpa [hh, hs] using hrest

/-! ## Commands that run -/

namespace Machine

/-- The machine from which a run starts. -/
def startingAt (m : Machine) (start : Option Int32) : Machine :=
  match start with
  | none => m
  | some address => { m with registers := { m.registers with counter := address } }

/-- Setting the address at which a run starts does not halt a machine, and wakes none. -/
lemma halted_startingAt (m : Machine) (start : Option Int32) :
    (m.startingAt start).halted = m.halted := by
  cases start <;> rfl

section Run

variable {stop : Condition} {s : Machine} {steps n : Nat}

/-- A run takes a step if it may take any. -/
lemma IsRunLength.pos (h : IsRunLength stop s steps n) (hsteps : 1 ≤ steps) : 1 ≤ n := by
  rcases h with ⟨⟨hn, -⟩, -⟩ | ⟨rfl, -⟩
  · exact hn.1
  · exact hsteps

/-- A run takes no more steps than it may take. -/
lemma IsRunLength.le (h : IsRunLength stop s steps n) : n ≤ steps := by
  rcases h with ⟨⟨hn, -⟩, -⟩ | ⟨rfl, -⟩
  · exact hn.2
  · exact le_rfl

/-- A run takes no step behind one with a reason to stop. -/
lemma IsRunLength.le_of_stopsAt (h : IsRunLength stop s steps n) {i : Nat} (hi : 1 ≤ i)
    (hi' : i ≤ steps) (hstops : StopsAt stop s i) : n ≤ i := by
  rcases h with ⟨-, hfirst⟩ | ⟨rfl, hnever⟩
  · exact hfirst ⟨⟨hi, hi'⟩, hstops⟩
  · exact absurd hstops (hnever i hi hi')

/-- A run ends by the fault of its last step, if this step fails. -/
lemma lastFault_eq_some_iff {e : Fault} :
    s.lastFault n = some e ↔ 1 ≤ n ∧ (s.stepped (n - 1)).step.result = .error e := by
  cases n with
  | zero => simp [lastFault, results]
  | succ n =>
    rw [lastFault, results, List.range_succ, List.map_append, List.map_singleton,
      List.getLast?_concat, Nat.add_sub_cancel]
    cases (s.stepped n).step.result <;> simp

/-- A condition is an error behind a step if the machine still runs there and the condition cannot be
evaluated. -/
lemma conditionError_eq_some_iff {e : CellError} :
    conditionError stop s n = some e ↔
      1 ≤ n ∧ (s.stepped n).halted = false ∧ stop.shortfall (s.stepped n) = .error e := by
  rw [conditionError]
  cases n with
  | zero => simp
  | succ n =>
    cases (s.stepped (n + 1)).halted with
    | true => simp
    | false => cases stop.shortfall (s.stepped (n + 1)) <;> simp

/-- A run gives no log exactly if its condition is an error behind its last step. -/
lemma ending_eq_error_iff {done : List LogLine} {e : CellError} :
    ending stop done s n = .error e ↔ conditionError stop s n = some e := by
  rw [ending]
  cases conditionError stop s n <;> simp

end Run

/-- A run is the loop, from the machine on which it starts. -/
lemma runFor_eq_runOn (start : Option Int32) (stop : Condition) (steps : Nat) (m : Machine) :
    m.runFor start stop steps = runOn stop #[] (m.startingAt start) steps := by
  cases start <;> rfl

/-- A run starts, and the loop on a recorder tells what it does. -/
lemma runFor_eq (start : Option Int32) (stop : Condition) (steps : Nat) (m : Machine) :
    ∃ n, (m.startingAt start).IsRunLength stop steps n ∧
      m.runFor start stop steps =
        ((m.startingAt start).ending stop [] n, (m.startingAt start).stepped n) ∧
      ∀ before, runWith Recorder.step Recorder.machine stop #[] ⟨m.startingAt start, before⟩ steps =
        ((m.startingAt start).ending stop [] n,
          ⟨(m.startingAt start).stepped n, before ++ (m.startingAt start).results n⟩) := by
  obtain ⟨n, hn, hloop⟩ := Recorder.runWith_eq stop #[] (m.startingAt start) steps
  refine ⟨n, hn, ?_, hloop⟩
  have hmap := runWith_map Recorder.step Recorder.machine
    (fun m => (m.step.result, m.step.machine)) id Recorder.machine (fun _ => rfl) (fun _ => rfl) stop
    #[] ⟨m.startingAt start, []⟩ steps
  rw [hloop []] at hmap
  rw [runFor_eq_runOn, runOn_eq_runWith]
  exact hmap

end Machine

namespace Script.Command

variable {files : Files} {steps : Nat} {m : Machine} {start : Option Int32} {stop : Condition}

/-- A command that runs leaves the machine that the run leaves. -/
lemma execute_run_snd :
    ((run start stop).execute files steps m).2 = (m.runFor start stop steps).2 := by
  rw [execute]
  cases m.runFor start stop steps with
  | mk result m => cases result <;> rfl

/-- A command that runs fails if the run does. -/
lemma execute_run_of_error {e : CellError} (h : (m.runFor start stop steps).1 = .error e) :
    ((run start stop).execute files steps m).1 = .error (.cell e) := by
  rw [execute]
  cases hrun : m.runFor start stop steps with
  | mk result m =>
    rw [hrun] at h
    cases h
    rfl

/-- A command that runs gives the token of the run. -/
lemma execute_run_of_ok {r : Run} (h : (m.runFor start stop steps).1 = .ok r) :
    ((run start stop).execute files steps m).1 = .ok (.ofRun r) := by
  rw [execute]
  cases hrun : m.runFor start stop steps with
  | mk result m =>
    rw [hrun] at h
    cases h
    rfl

end Script.Command

open Machine in
/-- **A command that runs stops at the first reason.** Let `s` be the machine from which the run starts
and `n` the number of the first step behind which there is a reason to stop, or the number of steps that
the run may take if there is none. Then the run takes `n` steps, and:

* the machine behind it is `s` after `n` steps;
* if the condition cannot be evaluated there, and the machine has not halted, the command fails so;
* otherwise its token has the lines of the steps that have succeeded, and the fault of the last step if
  this one has failed;
* a run that may step does so before anything else, and a machine that has halted faults there. -/
theorem Script.run_stops_first (files : Files) (steps : Nat) (m : Machine) (start : Option Int32)
    (stop : Condition) :
    let s := m.startingAt start
    let ran := (Command.run start stop).execute files steps m
    ∃ n, s.IsRunLength stop steps n ∧
      runWith Recorder.step Recorder.machine stop #[] ⟨s, []⟩ steps =
        ((m.runFor start stop steps).1, ⟨s.stepped n, s.results n⟩) ∧
      (s.results n).length = n ∧ ran.2 = s.stepped n ∧
      (∀ e, 1 ≤ n → (s.stepped n).halted = false → stop.shortfall (s.stepped n) = .error e →
        ran.1 = .error (.cell e)) ∧
      ((∀ e, ¬ (1 ≤ n ∧ (s.stepped n).halted = false ∧ stop.shortfall (s.stepped n) = .error e)) →
        ∃ fault, ran.1 = .ok (.run ((s.log n).map LogLine.text) fault) ∧
          ∀ message, fault = some message ↔
            1 ≤ n ∧ ∃ e, (s.stepped (n - 1)).step.result = .error e ∧ message = e.message) ∧
      (s.log n).length ≤ steps ∧ (1 ≤ steps → 1 ≤ n) ∧
      (m.halted = true → 1 ≤ steps → ran.1 = .ok (.run [] (some Fault.halted.message))) := by
  intro s ran
  obtain ⟨n, hn, hrun, hloop⟩ := m.runFor_eq start stop steps
  have herror : ∀ e, conditionError stop s n = some e → ran.1 = .error (.cell e) := fun e he =>
    Command.execute_run_of_error (by rw [hrun, ending_eq_error_iff.2 he])
  have htoken : conditionError stop s n = none →
      ran.1 = .ok (.run ((s.log n).map LogLine.text) ((s.lastFault n).map Fault.message)) := by
    intro hnone
    have hok : (m.runFor start stop steps).1 = .ok { lines := s.log n, fault := s.lastFault n } := by
      rw [hrun, ending, hnone]
      rfl
    exact Command.execute_run_of_ok hok
  refine ⟨n, hn, by rw [hrun, hloop, List.nil_append],
    by rw [results, List.length_map, List.length_range], ?_,
    fun e hpos hh he => herror e (conditionError_eq_some_iff.2 ⟨hpos, hh, he⟩), fun hnone => ?_,
    (s.length_log_le n).trans hn.le, hn.pos, fun hhalted hsteps => ?_⟩
  · exact Command.execute_run_snd.trans (by rw [hrun])
  · refine ⟨_, htoken (Option.eq_none_iff_forall_ne_some.2 fun e he =>
      hnone e (conditionError_eq_some_iff.1 he)), fun message => ?_⟩
    simp only [Option.map_eq_some_iff, lastFault_eq_some_iff]
    grind
  · -- The first step fails, and so it is the last one.
    have hs : s.halted = true := (m.halted_startingAt start).trans hhalted
    have hstep : s.step = { result := .error .halted, machine := s } := step_of_halted hs
    have hfirst : s.step.result = .error .halted := by rw [hstep]
    obtain rfl : n = 1 := le_antisymm
      (hn.le_of_stopsAt le_rfl hsteps (Or.inl ⟨.halted, hfirst⟩)) (hn.pos hsteps)
    have hnone : conditionError stop s 1 = none := by
      have hstill : (s.stepped 1).halted = true := by rw [stepped, stepped, hstep, hs]
      rw [conditionError, if_pos (Or.inr hstill)]
    have hlog : s.log 1 = [] := by
      rw [log_eq, results_succ, hfirst]
      rfl
    have hfault : s.lastFault 1 = some .halted := lastFault_eq_some_iff.2 ⟨le_rfl, hfirst⟩
    rw [htoken hnone, hlog, hfault]
    rfl

open Machine in
/-- A run whose condition looks at a cell that does not exist, behind one step that has succeeded; and
the same run on a machine that has halted. -/
theorem Script.run_stops_first_missing_cell :
    ∃ (m : Machine) (stop : Condition) (e : CellError),
      stop.shortfall (m.stepped 1) = .error e ∧ (m.stepped 1).registers.counter = 1 ∧
        ((Command.run none stop).execute (fun _ => .directory) 7 m).1 = .error (.cell e) ∧
        ((Command.run none stop).execute (fun _ => .directory) 7 m).2 = m.stepped 1 ∧
        ((Command.run none stop).execute (fun _ => .directory) 7 { m with halted := true }).1 =
          .ok (.run [] (some Fault.halted.message)) := by
  let m : Machine :=
    { memory := { Memory.empty with
        code := Memory.empty.code.set 0 (some (.assemble .nop .direct 0)) } }
  let stop : Condition := .term (.compare (.cell 512) .equal (.word 0))
  have he : stop.shortfall (m.stepped 1) = .error (.refused (.dataAddress 512)) := by decide +kernel
  have hrunning : (m.stepped 1).halted = false := by decide +kernel
  have hcounter : (m.stepped 1).registers.counter = 1 := by decide +kernel
  clear_value m
  obtain ⟨n, hn, -, -, hmachine, herror, -⟩ := run_stops_first (fun _ => .directory) 7 m none stop
  obtain rfl : n = 1 := le_antisymm
    (hn.le_of_stopsAt le_rfl (by decide) (Or.inr (Or.inr (Or.inr ⟨_, he⟩)))) (hn.pos (by decide))
  obtain ⟨-, -, -, -, -, -, -, -, -, hhalted⟩ :=
    run_stops_first (fun _ => .directory) 7 { m with halted := true } none stop
  exact ⟨m, stop, _, he, hcounter, herror _ le_rfl hrunning he, hmachine, hhalted rfl (by decide)⟩

end AccumulatorMachine

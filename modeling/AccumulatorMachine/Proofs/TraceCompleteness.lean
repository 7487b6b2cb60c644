import AccumulatorMachine.Proofs.BoundedRuns
import AccumulatorMachine.Proofs.FirstFailure

/-!
# When the log of a session is complete

A session shows what its machine does by the log lines of the runs. A run whose condition cannot be
evaluated ends in a failed line, and the log lines that it has collected by then go with it, although
the machine has moved. These are the only lines that are lost. So the log of a stretch of a session
shows all that has been executed there exactly if no run in it ends in this way.

What has been executed is told by a recorder that is given the lines instead of the machine.

## Main definitions

* `Recorder.obey`, `Recorder.after` — a line given to a recorder, and the recorder after some lines.
* `Recorder.executed` — the log lines of the steps on record that have succeeded.
* `Script.logged` — the log lines that some tokens show.
* `Script.CutShort` — a line that is a run whose condition cannot be evaluated.

## Main results

* `Recorder.obey_eq` — what one line shows, and what it has executed.
* `Recorder.after_eq` — the log of some lines is complete exactly if none of them is cut short.
* `Script.trace_complete_iff` — so is that of a stretch of a session.
* `Script.trace_loses_step` — a session whose log misses a step.
-/

set_option autoImplicit false

namespace AccumulatorMachine

open Script

/-! ## Lines given to a recorder -/

namespace Recorder

section Obey

variable (files : Files) (steps : Nat)

/-- Carries out a command. Only a run makes the machine step. -/
def execute (r : Recorder) : Command → Except ExecutionError Token × Recorder
  | .run start stop =>
    match Machine.runWith step machine stop #[] { r with machine := r.machine.startingAt start }
      steps with
    | (.error e, r) => (.error (.cell e), r)
    | (.ok run, r) => (.ok (.ofRun run), r)
  | c =>
    let (result, m) := c.execute files steps r.machine
    (result, { r with machine := m })

/-- What a line gives, and the recorder after it. -/
def obey (r : Recorder) : ReadLine → Option (Except LineError Token) × Recorder
  | .error e => (some (.error (.unreadable e)), r)
  | .ok line =>
    match Command.ofLine line with
    | .error e => (some (.error (.command e)), r)
    | .ok none => (none, r)
    | .ok (some c) =>
      let (result, r) := execute files steps { r with machine := c.before r.machine } c
      (some (result.mapError .execution), r)

/-- The recorder after some lines. -/
def after (r : Recorder) (lines : List ReadLine) : Recorder :=
  lines.foldl (fun r line => (r.obey files steps line).2) r

end Obey

/-- The log lines of those results that are of steps that have succeeded. -/
def logLines (results : List (Except Fault LogLine)) : List String :=
  (results.filterMap Except.toOption).map LogLine.text

/-- The log lines of the steps on record that have succeeded. -/
def executed (r : Recorder) : List String := logLines r.results

end Recorder

namespace Script

/-- The log lines of a run. -/
def Token.logged : Token → List String
  | .run lines _ => lines
  | _ => []

/-- The log lines that some tokens show. -/
def logged (tokens : List Token) : List String := tokens.flatMap Token.logged

/-- A command that is a run whose condition cannot be evaluated. -/
def Command.CutShort (steps : Nat) (m : Machine) (c : Command) : Prop :=
  ∃ start stop e, c = .run start stop ∧ (m.runFor start stop steps).1 = .error e

/-- The machine after some lines. -/
def machineAfter (files : Files) (steps : Nat) (m : Machine) (lines : List ReadLine) : Machine :=
  lines.foldl (fun m line => (obey files steps m line).2) m

/-- A line that is a run whose condition cannot be evaluated. -/
def CutShort (steps : Nat) (m : Machine) (line : ReadLine) : Prop :=
  ∃ text c, line = .ok text ∧ Command.ofLine text = .ok (some c) ∧ c.CutShort steps (c.before m)

end Script

/-! ## One line -/

namespace Machine

/-- A run whose condition cannot be evaluated has executed something. -/
lemma log_ne_nil_of_conditionError {stop : Condition} {m : Machine} {n : Nat} {e : CellError}
    (h : conditionError stop m n = some e) : m.log n ≠ [] := by
  obtain ⟨hpos, hrunning, -⟩ := conditionError_eq_some_iff.1 h
  obtain ⟨k, rfl⟩ := Nat.exists_eq_add_of_le' hpos
  cases hr : (m.stepped k).step.result with
  | error e =>
    -- A step that fails leaves a machine that has halted.
    have hhalted : (m.stepped (k + 1)).halted = true := by
      rw [stepped, machine_of_step_error hr]
    rw [hhalted] at hrunning
    cases hrunning
  | ok line =>
    rw [log, hr]
    simp [Except.toOption]

end Machine

namespace Recorder

variable {files : Files} {steps : Nat}

/-- What is shown of what has been executed: all of it, or nothing if it is cut short. -/
structure Shows (cut : Prop) (shown executed : List String) : Prop where
  complete : ¬ cut → shown = executed
  lost : cut → shown = [] ∧ executed ≠ []

/-- Where nothing is cut short, nothing is shown of nothing. -/
lemma Shows.nothing {cut : Prop} (h : ¬ cut) : Shows cut [] [] :=
  ⟨fun _ => rfl, fun hcut => absurd hcut h⟩

/-- No more is shown than has been executed. -/
lemma Shows.length_le {cut : Prop} {shown executed : List String} (h : Shows cut shown executed) :
    shown.length ≤ executed.length := by
  by_cases hcut : cut
  · rw [(h.lost hcut).1]
    exact Nat.zero_le _
  · rw [h.complete hcut]

variable (wording : Wording) (files : Files) (steps : Nat)

/-- A run puts on record what it shows, and something if it is cut short. -/
lemma execute_run (m : Machine) (start : Option Int32) (stop : Condition) :
    ∃ taken, (∀ before, execute files steps ⟨m, before⟩ (.run start stop) =
        (((Command.run start stop).execute files steps m).1,
          ⟨((Command.run start stop).execute files steps m).2, before ++ taken⟩)) ∧
      Shows ((Command.run start stop).CutShort steps m)
        (Token.ofLine wording
          (((Command.run start stop).execute files steps m).1.mapError .execution)).logged
        (logLines taken) := by
  obtain ⟨n, -, hrun, hloop⟩ := m.runFor_eq start stop steps
  refine ⟨(m.startingAt start).results n, fun before => ?_, ?_, ?_⟩
  · simp only [execute, Command.execute, hloop, hrun]
    cases (m.startingAt start).ending stop [] n <;> rfl
  · intro hcut
    have hnone : Machine.conditionError stop (m.startingAt start) n = none :=
      Option.eq_none_iff_forall_ne_some.2 fun e he =>
        hcut ⟨start, stop, e, rfl, by rw [hrun, Machine.ending_eq_error_iff.2 he]⟩
    have hok : (m.runFor start stop steps).1 = .ok
        { lines := (m.startingAt start).log n, fault := (m.startingAt start).lastFault n } := by
      rw [hrun, Machine.ending, hnone]
      rfl
    rw [Command.execute_run_of_ok hok, logLines, ← Machine.log_eq]
    rfl
  · rintro ⟨_, _, e, hc, he⟩
    obtain ⟨rfl, rfl⟩ := Command.run.inj hc
    refine ⟨?_, ?_⟩
    · rw [Command.execute_run_of_error he]
      rfl
    · rw [hrun] at he
      rw [logLines, ← Machine.log_eq, Ne, List.map_eq_nil_iff]
      exact Machine.log_ne_nil_of_conditionError (Machine.ending_eq_error_iff.1 he)

/-- A command does to a recorder what it does to its machine, and puts on record what it shows. -/
lemma execute_eq (m : Machine) (c : Command) :
    ∃ taken, (∀ before, execute files steps ⟨m, before⟩ c =
        ((c.execute files steps m).1, ⟨(c.execute files steps m).2, before ++ taken⟩)) ∧
      Shows (c.CutShort steps m)
        (Token.ofLine wording ((c.execute files steps m).1.mapError .execution)).logged
        (logLines taken) := by
  by_cases hrun : ∃ start stop, c = .run start stop
  · obtain ⟨start, stop, rfl⟩ := hrun
    exact execute_run wording files steps m start stop
  · have hcut : ¬ c.CutShort steps m := fun ⟨start, stop, _, hc, _⟩ => hrun ⟨start, stop, hc⟩
    refine ⟨[], fun before => ?_, ?_⟩
    · rw [List.append_nil]
      cases c with
      | run start stop => exact absurd ⟨start, stop, rfl⟩ hrun
      | _ => rfl
    · have hnil :
          (Token.ofLine wording ((c.execute files steps m).1.mapError .execution)).logged = [] := by
        cases ht : (c.execute files steps m).1 with
        | error e => rfl
        | ok t =>
          rcases execute_token files steps ht with
            ⟨start, stop, _, hc, -⟩ | ⟨_, rfl⟩ | ⟨_, rfl⟩ | ⟨_, _, rfl⟩
          · exact absurd ⟨start, stop, hc⟩ hrun
          · rfl
          · rfl
          · rfl
      rw [hnil]
      exact Shows.nothing hcut

/-- A line that is read is cut short if it is a command that is. -/
lemma cutShort_ok_iff {m : Machine} {text : List Char} :
    CutShort steps m (.ok text) ↔
      ∃ c, Command.ofLine text = .ok (some c) ∧ c.CutShort steps (c.before m) := by
  simp [CutShort]

/-- A line does to a recorder what it does to its machine, and puts on record what it shows. -/
lemma obey_eq (m : Machine) (line : ReadLine) :
    ∃ taken, (∀ before, obey files steps ⟨m, before⟩ line =
        ((Script.obey files steps m line).1,
          ⟨(Script.obey files steps m line).2, before ++ taken⟩)) ∧
      Shows (CutShort steps m line) (logged (tokensFrom wording files steps m [line]))
        (logLines taken) := by
  cases line with
  | error e =>
    refine ⟨[], fun before => by rw [List.append_nil]; rfl, Shows.nothing ?_⟩
    rintro ⟨_, _, h, -⟩
    cases h
  | ok text =>
    cases hc : Command.ofLine text with
    | error e =>
      have hcut : ¬ CutShort steps m (.ok text) := by simp [cutShort_ok_iff, hc]
      refine ⟨[], fun before => ?_, ?_⟩
      · simp [obey, Script.obey, hc]
      · simpa [tokensFrom, Script.obey, hc, logged, logLines, Token.ofLine, Token.logged]
          using Shows.nothing hcut
    | ok command =>
      cases command with
      | none =>
        have hcut : ¬ CutShort steps m (.ok text) := by simp [cutShort_ok_iff, hc]
        refine ⟨[], fun before => ?_, ?_⟩
        · simp [obey, Script.obey, hc]
        · simpa [tokensFrom, Script.obey, hc, logged, logLines] using Shows.nothing hcut
      | some c =>
        obtain ⟨taken, hexecute, hshows⟩ := execute_eq wording files steps (c.before m) c
        have hcut : CutShort steps m (.ok text) ↔ c.CutShort steps (c.before m) := by
          simp [cutShort_ok_iff, hc]
        refine ⟨taken, fun before => ?_, ?_⟩
        · simp [obey, Script.obey, hc, hexecute]
        · rw [hcut]
          simpa [tokensFrom, Script.obey, hc, logged] using hshows

end Recorder

/-! ## Lines in a row -/

namespace Script

variable (wording : Wording) (files : Files) (steps : Nat)

/-- The machine behind lines in two parts is that behind the second part, from the one behind the first. -/
lemma machineAfter_append (m : Machine) (lines more : List ReadLine) :
    machineAfter files steps m (lines ++ more) =
      machineAfter files steps (machineAfter files steps m lines) more :=
  List.foldl_append

/-- Some lines are a first one, and others for the machine behind it. -/
lemma tokensFrom_cons (m : Machine) (line : ReadLine) (rest : List ReadLine) :
    tokensFrom wording files steps m (line :: rest) =
      tokensFrom wording files steps m [line] ++
        tokensFrom wording files steps (obey files steps m line).2 rest := by
  rw [tokensFrom, tokensFrom]
  cases obey files steps m line with
  | mk result m => cases result <;> rfl

/-- Lines in two parts give the tokens of the first part, and then those of the second for the machine
there. -/
lemma tokensFrom_append (m : Machine) (lines more : List ReadLine) :
    tokensFrom wording files steps m (lines ++ more) =
      tokensFrom wording files steps m lines ++
        tokensFrom wording files steps (machineAfter files steps m lines) more := by
  induction lines generalizing m with
  | nil => rfl
  | cons line rest ih =>
    rw [List.cons_append, tokensFrom_cons, ih, tokensFrom_cons wording files steps m line rest,
      List.append_assoc]
    rfl

/-- The lines have one that is cut short. -/
def HasCutShort (m : Machine) (lines : List ReadLine) : Prop :=
  ∃ before line later, lines = before ++ line :: later ∧
    CutShort steps (machineAfter files steps m before) line

/-- Some lines have one that is cut short if it is the first or one of the others. -/
lemma hasCutShort_cons {m : Machine} {line : ReadLine} {rest : List ReadLine} :
    HasCutShort files steps m (line :: rest) ↔
      CutShort steps m line ∨ HasCutShort files steps (obey files steps m line).2 rest := by
  constructor
  · rintro ⟨before, cut, later, hlines, hcut⟩
    rcases List.cons_eq_append_iff.1 hlines with ⟨rfl, h⟩ | ⟨before, rfl, rfl⟩
    · obtain ⟨rfl, rfl⟩ := List.cons.inj h
      exact Or.inl hcut
    · exact Or.inr ⟨before, cut, later, rfl, hcut⟩
  · rintro (hcut | ⟨before, cut, later, rfl, hcut⟩)
    · exact ⟨[], line, rest, rfl, hcut⟩
    · exact ⟨line :: before, cut, later, rfl, hcut⟩

end Script

namespace Recorder

variable (wording : Wording) (files : Files) (steps : Nat)

/-- Results in two parts have the log lines of both. -/
lemma logLines_append (before taken : List (Except Fault LogLine)) :
    logLines (before ++ taken) = logLines before ++ logLines taken := by
  simp [logLines]

/-- **The lines show what they execute if none of them is cut short.**

**Proof sketch.** Induction on the lines. A line shows all that it executes, or nothing of something if it
is cut short. The lines behind it cannot make up for this, as no line shows more than it executes. -/
lemma after_eq (m : Machine) (lines : List ReadLine) :
    ∃ taken, (∀ before, after files steps ⟨m, before⟩ lines =
        ⟨machineAfter files steps m lines, before ++ taken⟩) ∧
      (logged (tokensFrom wording files steps m lines)).length ≤ (logLines taken).length ∧
      (logged (tokensFrom wording files steps m lines) = logLines taken ↔
        ¬ HasCutShort files steps m lines) := by
  induction lines generalizing m with
  | nil =>
    refine ⟨[], fun before => by simp [after, machineAfter], le_rfl, iff_of_true rfl ?_⟩
    rintro ⟨before, line, later, h, -⟩
    simp at h
  | cons line rest ih =>
    obtain ⟨first, hobey, hshows⟩ := obey_eq wording files steps m line
    obtain ⟨others, hafter, hle, hiff⟩ := ih (Script.obey files steps m line).2
    refine ⟨first ++ others, fun before => ?_, ?_, ?_⟩
    · rw [after, List.foldl_cons, hobey, ← after, hafter, List.append_assoc]
      rfl
    · rw [tokensFrom_cons, logged, List.flatMap_append, logLines_append, List.length_append,
        List.length_append]
      exact Nat.add_le_add hshows.length_le hle
    · rw [tokensFrom_cons, logged, List.flatMap_append, ← logged, ← logged, logLines_append,
        hasCutShort_cons, not_or, ← hiff]
      by_cases hcut : CutShort steps m line
      · obtain ⟨hnothing, hlost⟩ := hshows.lost hcut
        refine iff_of_false (fun h => ?_) fun h => h.1 hcut
        have hlength := congrArg List.length h
        rw [hnothing, List.nil_append, List.length_append] at hlength
        have hpos := List.length_pos_iff.2 hlost
        omega
      · rw [hshows.complete hcut, List.append_cancel_left_eq]
        exact (and_iff_right hcut).symm

end Recorder

/-! ## Sessions -/

open Recorder in
/-- **The log of a stretch of a session is complete if no run in it is cut short.** A session that goes on
after failures sends the tokens of the lines before the stretch, of the stretch and of those after it. A
recorder that starts with the machine after the former lines follows the machine through the stretch.
The log lines of the stretch are then those of all steps that have succeeded there, unless the stretch
has a run whose condition cannot be evaluated. -/
theorem Script.trace_complete_iff (wording : Wording) (files : Files) (steps : Nat)
    (before stretch later : List ReadLine) :
    let start := machineAfter files steps {} before
    let recorder := Recorder.after files steps { machine := start } stretch
    let sent := tokensFrom wording files steps start stretch
    ((Settings.goOn wording steps).runLines files (before ++ stretch ++ later)).tokens =
        tokensFrom wording files steps {} before ++ sent ++
          tokensFrom wording files steps recorder.machine later ∧
      recorder.machine = machineAfter files steps start stretch ∧
      (logged sent = recorder.executed ↔
        ∀ earlier line others, stretch = earlier ++ line :: others →
          ¬ CutShort steps (machineAfter files steps start earlier) line) := by
  intro start recorder sent
  obtain ⟨taken, hafter, -, hiff⟩ := Recorder.after_eq wording files steps start stretch
  have hrecorder : recorder = ⟨machineAfter files steps start stretch, taken⟩ := hafter []
  refine ⟨?_, by rw [hrecorder], ?_⟩
  · rw [Settings.runLines, Settings.runFrom_goOn, hrecorder, tokensFrom_append, tokensFrom_append,
      machineAfter_append]
    rfl
  · rw [hrecorder, executed, hiff]
    simp only [HasCutShort, not_exists, not_and]

/-- A session with one run, of one step. Its condition looks at a cell that does not exist, and the log
of the session misses the step. -/
theorem Script.trace_loses_step :
    ∃ stretch : List ReadLine,
      let files : Files := fun _ => .directory
      (∀ wording, ((Settings.goOn wording 10).runLines files stretch).tokens =
          [.setup ["2 instructions written"],
            .failure (CellError.refused (.dataAddress 512)).message]) ∧
        (∀ wording, logged ((Settings.goOn wording 10).runLines files stretch).tokens = []) ∧
        (Recorder.after files 10 { machine := {} } stretch).executed =
          ["#0x00: (00000000  0)  NOP  0        [A=0x00000000][PC=0x01]"] := by
  refine ⟨[.ok "code write #0x0 0x(00:0,11:0)".toList, .ok "run until #0x200 = 0x0".toList],
    fun wording => ?_, fun wording => ?_, by decide +kernel⟩
  · with_unfolding_all rfl
  · with_unfolding_all rfl

end AccumulatorMachine

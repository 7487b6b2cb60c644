import AccumulatorMachine.CommandLine
import Mathlib.Tactic

/-!
# When a session ends

A session reads one line in each turn. Unless a failure ends it, it goes on until there are no lines
left. A text has finitely many, whatever its bytes are. A directory can be opened as a script too, but
each attempt to read from it fails and leaves as much to read as before: a session that goes on after
failures fails again in the next turn, and so on for ever. It ends in all other cases.

## Main definitions

* `Session`, `Settings.turn`, `Settings.turns` — a session between two turns, one turn, and some of them.
* `Settings.Ends` — a session ends within some number of turns.
* `CommandLine.Options.InsistsOnDirectory` — the script is a directory, and failures do not end the
  session.

## Main results

* `Settings.runWithin_eq` — a session that ends within some turns is one that these turns end.
* `Settings.runWithin_lines` — a session on lines ends, and takes one turn more than there are lines.
* `Settings.turns_failing` — a session on a directory takes as many turns as one likes.
* `Settings.run_eq_ended_iff` — a session as a whole goes as its turns do.
* `CommandLine.Options.session_ends_iff` — so these are the sessions that end.
-/

set_option autoImplicit false

namespace AccumulatorMachine

namespace Script

/-! ## Turns -/

/-- A session between two turns. -/
structure Session where
  /-- The machine. -/
  machine : Machine := {}
  /-- The tokens sent so far. -/
  sent : Array Token := #[]
  /-- What is left to read. -/
  reading : Reading

namespace Settings

variable (settings : Settings) (files : Files)

/-- One turn: the outcome if the session ends, and otherwise the session behind the turn. -/
def turn (s : Session) : Except Outcome Session :=
  match s.reading.next? with
  | none => .error ⟨s.sent.toList, .ok ()⟩
  | some (line, reading) =>
    (settings.take files s.machine s.sent line).map fun (machine, sent) => ⟨machine, sent, reading⟩

/-- Some turns, or as many as there are until the session ends. -/
def turns (s : Session) : (count : Nat) → Except Outcome Session
  | 0 => .ok s
  | count + 1 => (settings.turn files s).bind fun s => turns s count

/-- A session that ends within some turns is one that these turns end. -/
lemma runWithin_eq (s : Session) (count : Nat) :
    settings.runWithin files s.machine s.sent s.reading count =
      match settings.turns files s count with
      | .error outcome => some outcome
      | .ok _ => none := by
  induction count generalizing s with
  | zero => rfl
  | succ count ih =>
    rw [runWithin, turns, turn]
    cases s.reading.next? with
    | none => rfl
    | some next =>
      obtain ⟨line, reading⟩ := next
      simp only
      cases settings.take files s.machine s.sent line with
      | error outcome => rfl
      | ok next => exact ih ⟨next.1, next.2, reading⟩

/-! ## Finitely many lines -/

/-- A line sends one token at most, whether the session ends there or goes on. -/
lemma length_tokens_take (m : Machine) (sent : Array Token) (line : ReadLine) :
    match settings.take files m sent line with
    | .error outcome => outcome.tokens.length ≤ sent.size + 1
    | .ok (_, sent') => sent'.size ≤ sent.size + 1 := by
  rw [take]
  cases obey files settings.steps m line with
  | mk result m' =>
    cases result with
    | none => exact Nat.le_succ _
    | some result =>
      cases result with
      | error e => cases settings.stopOnFailure <;> simp
      | ok token =>
        simp only
        cases settings.stopOnFailure <;> cases token.error? <;> simp

/-- A session on lines takes one turn for each of them, and one in which it finds the end, unless a line
ends it before.

**Proof sketch.** Induction on the lines, as each turn takes one away. -/
lemma runWithin_lines (m : Machine) (sent : Array Token) (lines : List ReadLine) :
    settings.runWithin files m sent (.lines lines) (lines.length + 1) =
      some (settings.runFrom files m sent lines) := by
  induction lines generalizing m sent with
  | nil => rfl
  | cons line lines ih =>
    rw [List.length_cons, runWithin, runFrom, Reading.next?]
    simp only
    cases settings.take files m sent line with
    | error outcome => rfl
    | ok next => exact ih next.1 next.2

/-- A session on lines that ends within some turns has the outcome that the lines have. -/
lemma runFrom_of_runWithin {m : Machine} {sent : Array Token} {lines : List ReadLine} {count : Nat}
    {outcome : Outcome} (h : settings.runWithin files m sent (.lines lines) count = some outcome) :
    settings.runFrom files m sent lines = outcome := by
  induction lines generalizing m sent count with
  | nil =>
    cases count with
    | zero => cases h
    | succ count => exact Option.some.inj h
  | cons line lines ih =>
    cases count with
    | zero => cases h
    | succ count =>
      rw [runWithin, Reading.next?] at h
      simp only at h
      rw [runFrom]
      cases htake : settings.take files m sent line with
      | error outcome' =>
        rw [htake] at h
        exact Option.some.inj h
      | ok next =>
        rw [htake] at h
        exact ih h

/-- A session on lines sends no more tokens than there are lines. -/
lemma length_tokens_runFrom (m : Machine) (sent : Array Token) (lines : List ReadLine) :
    (settings.runFrom files m sent lines).tokens.length ≤ sent.size + lines.length := by
  induction lines generalizing m sent with
  | nil => exact le_of_eq Array.length_toList
  | cons line lines ih =>
    have hline := settings.length_tokens_take files m sent line
    rw [runFrom, List.length_cons]
    cases htake : settings.take files m sent line with
    | error outcome =>
      rw [htake] at hline
      exact hline.trans (by omega)
    | ok next =>
      rw [htake] at hline
      have hrest := ih next.1 next.2
      exact hrest.trans (by simp only at hline; omega)

/-! ## Reading that fails again and again -/

variable {settings} (m : Machine) (sent : Array Token) (e : ReadError)

/-- A failure to read ends a session that stops at failures, in its first turn. -/
lemma runWithin_failing (h : settings.stopOnFailure = true) (count : Nat) :
    settings.runWithin files m sent (.failing e) (count + 1) =
      some ⟨sent.toList, .error (.line (.unreadable e))⟩ := by
  simp [runWithin, Reading.next?, take, obey, h]

/-- A session that goes on after failures takes a turn for each failure to read, and is as far from its
end as before. -/
lemma turns_failing (h : settings.stopOnFailure = false) (count : Nat) :
    settings.turns files ⟨m, sent, .failing e⟩ count =
      .ok ⟨m, sent ++ Array.replicate count (.failure e.message), .failing e⟩ := by
  induction count generalizing sent with
  | zero => simp [turns]
  | succ count ih =>
    have hturn : settings.turn files ⟨m, sent, .failing e⟩ =
        .ok ⟨m, sent.push (.failure e.message), .failing e⟩ := by
      simp [turn, Reading.next?, take, obey, h, LineError.message, Except.map]
    have hsent : sent.push (.failure e.message) ++ Array.replicate count (.failure e.message) =
        sent ++ Array.replicate (count + 1) (.failure e.message) := by
      apply Array.ext'
      simp [List.replicate_succ]
    rw [turns, hturn]
    show settings.turns files ⟨m, sent.push (.failure e.message), .failing e⟩ count = _
    rw [ih, hsent]

/-- So it does not end within any number of turns. -/
lemma runWithin_failing_eq_none (h : settings.stopOnFailure = false) (count : Nat) :
    settings.runWithin files m sent (.failing e) count = none := by
  have hwithin := settings.runWithin_eq files ⟨m, sent, .failing e⟩ count
  rw [turns_failing files m sent e h] at hwithin
  exact hwithin

/-! ## Sessions as a whole -/

variable (settings) in
/-- A session from its beginning ends within some number of turns. -/
def Ends (reading : Reading) : Prop :=
  ∃ count outcome, settings.runWithin files {} #[] reading count = some outcome

/-- **A session goes as its turns do**: it ends in an outcome exactly if some number of turns leads
there. -/
theorem run_eq_ended_iff {reading : Reading} {outcome : Outcome} :
    settings.run files reading = .ended outcome ↔
      ∃ count, settings.runWithin files {} #[] reading count = some outcome := by
  cases reading with
  | lines lines =>
    constructor
    · rintro ⟨⟩
      exact ⟨_, settings.runWithin_lines files {} #[] lines⟩
    · rintro ⟨count, hcount⟩
      exact congrArg Course.ended (settings.runFrom_of_runWithin files hcount)
  | failing e =>
    rw [run]
    cases hstop : settings.stopOnFailure with
    | true =>
      constructor
      · rintro ⟨⟩
        exact ⟨1, runWithin_failing files {} #[] e hstop 0⟩
      · rintro ⟨count, hcount⟩
        cases count with
        | zero => cases hcount
        | succ count =>
          rw [runWithin_failing files {} #[] e hstop count] at hcount
          exact congrArg Course.ended (Option.some.inj hcount)
    | false =>
      constructor
      · rintro ⟨⟩
      · rintro ⟨count, hcount⟩
        rw [runWithin_failing_eq_none files {} #[] e hstop count] at hcount
        cases hcount

end Settings

end Script

namespace CommandLine.Options

open Script

/-- The script is a directory, and failures do not end the session. -/
structure InsistsOnDirectory (o : Options) (files : Files) : Prop where
  readsFile : o.readsInput = false
  directory : files o.script = .directory
  goesOn : o.continueOnFailure = true

/-- What is read is lines, unless the script is a directory. -/
lemma reading_cases {o : Options} {input : ByteArray} {files : Files} {reading : Reading}
    (h : o.reading input files = .ok reading) :
    (∃ lines, reading = .lines lines ∧ ¬ o.InsistsOnDirectory files) ∨
      (o.readsInput = false ∧ files o.script = .directory ∧
        reading = .failing (.file .isADirectory)) := by
  rw [Options.reading] at h
  split at h
  · rename_i hinput
    cases h
    exact .inl ⟨_, rfl, fun hinsists => by rw [hinsists.readsFile] at hinput; cases hinput⟩
  · rename_i hinput
    cases hview : files o.script with
    | absent cause =>
      rw [hview] at h
      cases h
    | directory =>
      rw [hview] at h
      cases h
      exact .inr ⟨Bool.eq_false_of_not_eq_true hinput, rfl, rfl⟩
    | regular bytes =>
      rw [hview] at h
      cases h
      exact .inl ⟨_, rfl, fun hinsists => by cases hview.symm.trans hinsists.directory⟩

/-- The program ends exactly if the session on the script does. -/
lemma execute_finished_iff (wording : Wording) {o : Options} {input : ByteArray} {files : Files}
    {reading : Reading} (h : o.reading input files = .ok reading) :
    (∃ exit output errors, o.execute wording input files = .finished exit output errors) ↔
      (o.settings wording).Ends files reading := by
  have hrun : (o.settings wording).Ends files reading ↔
      ∃ outcome, (o.settings wording).run files reading = .ended outcome := by
    rw [Settings.Ends, exists_comm]
    exact exists_congr fun outcome => (Settings.run_eq_ended_iff files).symm
  rw [hrun, execute, h]
  simp only
  cases (o.settings wording).run files reading with
  | endless token => exact iff_of_false (by rintro ⟨_, _, _, ⟨⟩⟩) nofun
  | ended outcome =>
    obtain ⟨tokens, result⟩ := outcome
    refine iff_of_true ?_ ⟨_, rfl⟩
    cases result <;> exact ⟨_, _, _, rfl⟩

/-- **A session ends, unless it insists on a directory.** For every script that can be opened:

* the session ends within some number of turns, and so does the program, exactly if the script is no
  directory or the session stops at failures;
* on lines it takes at most one turn more than there are lines, and sends at most one token for each;
* on a directory it ends in its first turn without a token, if it stops at failures;
* otherwise it goes on behind every number of turns, and has sent as many tokens, all of them alike. -/
theorem session_ends_iff (wording : Wording) {o : Options} {input : ByteArray} {files : Files}
    {reading : Reading} (h : o.reading input files = .ok reading) :
    ((o.settings wording).Ends files reading ↔ ¬ o.InsistsOnDirectory files) ∧
      ((∃ exit output errors, o.execute wording input files = .finished exit output errors) ↔
        ¬ o.InsistsOnDirectory files) ∧
      (∀ lines, reading = .lines lines → ∃ outcome,
        (o.settings wording).runWithin files {} #[] reading (lines.length + 1) = some outcome ∧
          outcome.tokens.length ≤ lines.length) ∧
      (∀ e, reading = .failing e → o.continueOnFailure = false →
        (o.settings wording).runWithin files {} #[] reading 1 =
          some ⟨[], .error (.line (.unreadable e))⟩) ∧
      (o.InsistsOnDirectory files → ∀ count,
        (o.settings wording).turns files ⟨{}, #[], reading⟩ count =
          .ok ⟨{}, Array.replicate count (.failure FileError.isADirectory.message), reading⟩) := by
  have hstop : (o.settings wording).stopOnFailure = !o.continueOnFailure := rfl
  rw [execute_finished_iff wording h]
  rcases reading_cases h with ⟨lines, rfl, hends⟩ | ⟨hinput, hdirectory, rfl⟩
  · -- The script has lines.
    have hwithin := (o.settings wording).runWithin_lines files {} #[] lines
    have hsession :=
      iff_of_true (⟨_, _, hwithin⟩ : (o.settings wording).Ends files (.lines lines)) hends
    refine ⟨hsession, hsession, ?_, nofun, fun hinsists => absurd hinsists hends⟩
    rintro lines' ⟨⟩
    have hlength := (o.settings wording).length_tokens_runFrom files {} #[] lines
    exact ⟨_, hwithin, by simpa using hlength⟩
  · cases hcontinue : o.continueOnFailure with
    | false =>
      have hends : ¬ o.InsistsOnDirectory files := by
        intro hinsists
        cases hcontinue.symm.trans hinsists.goesOn
      have hwithin := Settings.runWithin_failing files {} #[] (.file .isADirectory)
        (hstop.trans (by rw [hcontinue]; rfl)) 0
      have hsession := iff_of_true
        (⟨1, _, hwithin⟩ : (o.settings wording).Ends files (.failing (.file .isADirectory))) hends
      refine ⟨hsession, hsession, nofun, ?_, fun hinsists => absurd hinsists hends⟩
      rintro e ⟨⟩ -
      exact hwithin
    | true =>
      have hgoOn : (o.settings wording).stopOnFailure = false :=
        hstop.trans (by rw [hcontinue]; rfl)
      have hinsists : o.InsistsOnDirectory files := ⟨hinput, hdirectory, hcontinue⟩
      have hnever : ¬ (o.settings wording).Ends files (.failing (.file .isADirectory)) := by
        rintro ⟨count, outcome, hsome⟩
        rw [Settings.runWithin_failing_eq_none files {} #[] _ hgoOn] at hsome
        cases hsome
      have hsession := iff_of_false hnever (not_not_intro hinsists)
      refine ⟨hsession, hsession, nofun, fun _ _ hstops => Bool.noConfusion hstops, fun _ count => ?_⟩
      have hturns := Settings.turns_failing files {} #[] (.file .isADirectory) hgoOn count
      rwa [Array.empty_append] at hturns

/-- A session on the working directory that stops at failures ends in its first turn. -/
theorem session_ends_iff_stopping :
    ({ script := "." } : Options).reading .empty (Files.ofEntries []) =
        .ok (.failing (.file .isADirectory)) ∧
      ∀ wording, (({ script := "." } : Options).settings wording).runWithin (Files.ofEntries []) {} #[]
          (.failing (.file .isADirectory)) 1 =
        some ⟨[], .error (.line (.unreadable (.file .isADirectory)))⟩ :=
  ⟨rfl, fun wording => (@session_ends_iff wording { script := "." } .empty (Files.ofEntries [])
    (.failing (.file .isADirectory)) rfl).2.2.2.1 _ rfl rfl⟩

/-- A session on the working directory that goes on after failures ends within no number of turns, and
the program displays the same failure for ever. -/
theorem session_endless_on_directory :
    let o : Options := { script := ".", continueOnFailure := true }
    let files := Files.ofEntries []
    o.reading .empty files = .ok (.failing (.file .isADirectory)) ∧
      ∀ wording,
        (∀ count, (o.settings wording).runWithin files {} #[] (.failing (.file .isADirectory)) count =
          none) ∧
        o.execute wording .empty files = .endless "💥 Is a directory (os error 21)\n" :=
  ⟨rfl, fun _ => ⟨Settings.runWithin_failing_eq_none _ _ _ _ rfl, rfl⟩⟩

end CommandLine.Options

end AccumulatorMachine

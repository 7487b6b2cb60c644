import AccumulatorMachine.Script.Execution

/-!
# Sessions

Scripts from their first line to their last. Each marker starts a test plan on a new machine. A session
either stops at the first line that fails or reports the failure and goes on.

## Main definitions

* `Settings` — whether to stop at a failure, how many steps a run may take, and how a line without a form
  is worded.
* `obey` — what one line of a script gives.
* `Settings.take` — one line of a session: the session goes on, or it ends.
* `Settings.runLines` — a session on finitely many lines.
* `Settings.runWithin` — a session on anything that can be read, for so many lines at most.
* `Settings.run` — how a session on anything that can be read goes.

## Implementation notes

Reading a directory fails again and again. A session that goes on after failures never ends there:
`Settings.run` says so by `Course.endless`, and `Settings.runWithin` by giving nothing for any number of
turns.
-/

set_option autoImplicit false

namespace AccumulatorMachine.Script

/-- The number of steps a run may take unless told otherwise. -/
def defaultSteps : Nat := 10000

/-- How a session is conducted. -/
structure Settings where
  /-- What is said of a line that has no form. -/
  wording : Wording
  /-- Stop at the first failure. -/
  stopOnFailure : Bool := true
  /-- The number of steps a run may take. -/
  steps : Nat := defaultSteps

/-- Why a line gives no token. -/
inductive LineError where
  /-- The line cannot be read. -/
  | unreadable (cause : ReadError)
  /-- The line is no command. -/
  | command (cause : CommandError)
  /-- The command cannot be carried out. -/
  | execution (cause : ExecutionError)
deriving DecidableEq

/-- The wording of a line error. -/
def LineError.message (wording : Wording) : LineError → String
  | .unreadable cause => cause.message
  | .command cause => cause.message wording
  | .execution cause => cause.message

/-- Why a session ends before its last line. -/
inductive SessionError where
  /-- A line gives no token. -/
  | line (cause : LineError)
  /-- An assertion fails. -/
  | assertion (description failure : String)
  /-- A run ends by a fault. -/
  | fault (message : String)
deriving DecidableEq

/-- The wording of a session error. -/
def SessionError.message (wording : Wording) : SessionError → String
  | .line cause => cause.message wording
  | .assertion description failure => "assertion '" ++ description ++ "' failed: " ++ failure
  | .fault message => "run aborted: " ++ message

/-- The tokens of a session, and why it ended early if it did. -/
structure Outcome where
  /-- The tokens, in the order in which they were sent. -/
  tokens : List Token
  /-- Why the session ended early, if it did. -/
  result : Except SessionError Unit

/-- How a session goes. -/
inductive Course where
  /-- It ends. -/
  | ended (outcome : Outcome)
  /-- It sends the same token again and again. -/
  | endless (token : Token)

/-! ## One line -/

/-- The machine that a command finds: a new one after a marker. -/
def Command.before (m : Machine) : Command → Machine
  | .marker _ => {}
  | _ => m

/-- What a line gives, and the machine after it. A line of blanks and comments gives nothing. -/
def obey (files : Files) (steps : Nat) (m : Machine) :
    ReadLine → Option (Except LineError Token) × Machine
  | .error e => (some (.error (.unreadable e)), m)
  | .ok line =>
    match Command.ofLine line with
    | .error e => (some (.error (.command e)), m)
    | .ok none => (none, m)
    | .ok (some c) =>
      let (result, m) := c.execute files steps (c.before m)
      (some (result.mapError .execution), m)

/-- The error by which a session stops after a failing token. -/
def Token.error? : Token → Option SessionError
  | .assertion (some why) description => some (.assertion description why)
  | .run _ (some why) => some (.fault why)
  | _ => none

namespace Settings

/-- One line of a session that has sent the tokens `sent`: its outcome if it ends, and otherwise the
machine and the tokens with which it goes on. -/
def take (settings : Settings) (files : Files) (m : Machine) (sent : Array Token) (line : ReadLine) :
    Except Outcome (Machine × Array Token) :=
  match obey files settings.steps m line with
  | (none, m) => .ok (m, sent)
  | (some (.error e), m) =>
    if settings.stopOnFailure then .error ⟨sent.toList, .error (.line e)⟩
    else .ok (m, sent.push (.failure (e.message settings.wording)))
  | (some (.ok token), m) =>
    match settings.stopOnFailure, token.error? with
    | true, some e => .error ⟨(sent.push token).toList, .error e⟩
    | _, _ => .ok (m, sent.push token)

/-- The rest of a session, with the lines that are left. -/
def runFrom (settings : Settings) (files : Files) (m : Machine) (sent : Array Token) :
    List ReadLine → Outcome
  | [] => ⟨sent.toList, .ok ()⟩
  | line :: rest =>
    match settings.take files m sent line with
    | .error outcome => outcome
    | .ok (m, sent) => settings.runFrom files m sent rest

/-- A session on finitely many lines. -/
def runLines (settings : Settings) (files : Files) (lines : List ReadLine) : Outcome :=
  settings.runFrom files {} #[] lines

/-- The rest of a session on anything that can be read, if it ends within so many turns; a turn reads
one line or finds the end. -/
def runWithin (settings : Settings) (files : Files) (m : Machine) (sent : Array Token)
    (reading : Reading) : (turns : Nat) → Option Outcome
  | 0 => none
  | turns + 1 =>
    match reading.next? with
    | none => some ⟨sent.toList, .ok ()⟩
    | some (line, reading) =>
      match settings.take files m sent line with
      | .error outcome => some outcome
      | .ok (m, sent) => settings.runWithin files m sent reading turns

/-- A session on anything that can be read. -/
def run (settings : Settings) (files : Files) : Reading → Course
  | .lines lines => .ended (settings.runLines files lines)
  | .failing e =>
    if settings.stopOnFailure then .ended ⟨[], .error (.line (.unreadable e))⟩
    else .endless (.failure e.message)

end Settings

/-! ## Files -/

/-- The file that a line names, if it names one. -/
def fileOf : ReadLine → Option String
  | .error _ => none
  | .ok line =>
    match Command.ofLine line with
    | .ok (some (.load file)) => some file
    | .ok (some (.checkSource file)) => some file
    | _ => none

end AccumulatorMachine.Script

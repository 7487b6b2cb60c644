import AccumulatorMachine.Machine.Run

/-!
# Tokens

What a script reports, one token per command, and how tokens are displayed.

## Main definitions

* `Token` — a reported result.
* `Token.isFailing` — the token reports that something went wrong.
* `display` — the text of a list of tokens; assertions are numbered, from one on and in 32 bits.
-/

set_option autoImplicit false

namespace AccumulatorMachine.Script

/-- A reported result. -/
inductive Token where
  /-- An assertion, and why it failed if it did. -/
  | assertion (failure : Option String) (description : String)
  /-- The start of a test plan. -/
  | marker (description : String)
  /-- A line that cannot be read or carried out. -/
  | failure (message : String)
  /-- A command that prepares the machine. -/
  | setup (lines : List String)
  /-- A run: its log lines, and the fault that ended it. -/
  | run (lines : List String) (fault : Option String)
deriving DecidableEq

namespace Token

/-- The token of a run. -/
def ofRun (r : Run) : Token := .run (r.lines.map LogLine.text) (r.fault.map Fault.message)

/-- The token reports a failed line, a failed assertion or a fault. -/
def isFailing : Token → Bool
  | assertion why _ => why.isSome
  | failure _ => true
  | run _ fault => fault.isSome
  | marker _ | setup _ => false

/-- The token is an assertion. -/
def isAssertion : Token → Bool
  | assertion _ _ => true
  | _ => false

/-- A line with a sign in front of it. -/
def signed (sign line : String) : String := sign ++ " " ++ line ++ "\n"

/-- The text of a token. An assertion has the given number; what prepares the machine and what a run
logs is shown only when asked for. -/
def text (verbose : Bool) (number : Nat) : Token → String
  | assertion why description =>
    let heading := Numeral.natural 10 2 number ++ " → " ++ description
    match why with
    | none => heading ++ " ✅\n"
    | some why => heading ++ " ❌\n" ++ why ++ "\n"
  | marker description => signed "♯" description
  | failure message => signed "💥" message
  | setup lines => if verbose then String.join (lines.map (signed "🔧")) else ""
  | run lines fault =>
    (if verbose then String.join (lines.map (signed "⚡")) else "") ++
      match fault with
      | none => ""
      | some why => signed "💥" why

end Token

/-- The number of assertions so far, in 32 bits, and the text so far. -/
def displayStep (verbose : Bool) (shown : UInt32 × String) (t : Token) : UInt32 × String :=
  let count := if t.isAssertion then shown.1 + 1 else shown.1
  (count, shown.2 ++ t.text verbose count.toNat)

/-- The text of a list of tokens. -/
def display (verbose : Bool) (tokens : List Token) : String :=
  (tokens.foldl (displayStep verbose) (0, "")).2

end AccumulatorMachine.Script

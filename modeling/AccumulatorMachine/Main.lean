import AccumulatorMachine.CommandLine

/-!
# The program

Standard input, the file system and the two outputs around `CommandLine.Options.execute`.

## Main definitions

* `readAll` — everything on standard input.
* `viewFile` — what stands behind a name in the file system.
* `main` — the program.
-/

set_option autoImplicit false

namespace AccumulatorMachine.Program

/-- Everything that is left on a stream. -/
partial def readAll (stream : IO.FS.Stream) (bytes : ByteArray) : IO ByteArray := do
  let chunk ← stream.read 65536
  if chunk.isEmpty then return bytes
  readAll stream (bytes ++ chunk)

/-- Writes a text again and again. -/
partial def repeatForever (text : String) : IO Unit := do
  IO.print text
  repeatForever text

/-- The number of a system error, which the system may report with either sign. -/
def errorNumber (code : UInt32) : UInt32 := min code (0 - code)

/-- The file error that the system reports. -/
def fileError : IO.Error → FileError
  | .noFileOrDirectory _ _ _ => .notFound
  | .inappropriateType _ code _ =>
    if errorNumber code = 21 then .isADirectory else .notADirectory
  | .permissionDenied _ _ _ => .other "Permission denied (os error 13)"
  | .invalidArgument (some _) code details =>
    if errorNumber code = 36 then .nameTooLong else .other details
  | e => .other (toString e)

/-- What stands behind a name in the file system. -/
def viewFile (name : String) : IO FileView := do
  if name.toList.contains '\x00' then return .absent .nulInName
  try
    return .regular (← IO.FS.readBinFile name)
  catch e =>
    match fileError e with
    | .isADirectory => return .directory
    | cause => return .absent cause

/-- The files behind some names. -/
def viewFiles (names : List String) : IO Files := do
  let views ← names.mapM fun name => do return (name, ← viewFile name)
  return fun name => (views.lookup name).getD (.absent .notFound)

/-- How the program is called. -/
def usage : String :=
  "usage: --filepath FILE [--continue-on-failure] [--verbose] [--max-steps NUMBER]"

/-- What the program says of a line that has no form: it quotes the line. -/
def wording (line : List Char) : String := "no command: '" ++ String.ofList line ++ "'"

/-- Carries out the options. -/
def execute (o : CommandLine.Options) : IO UInt32 := do
  let input ← if o.readsInput then readAll (← IO.getStdin) .empty else pure .empty
  let script ← if o.readsInput then pure (.absent .notFound) else viewFile o.script
  let files ← viewFiles (o.fileNames input script)
  let all : Files := fun name => if !o.readsInput && name == o.script then script else files name
  match o.execute wording input all with
  | .endless text => do
    repeatForever text
    return 0
  | .finished exit output errors => do
    IO.print output
    IO.eprint errors
    return UInt32.ofNat exit

end AccumulatorMachine.Program

/-- The program. -/
def main (args : List String) : IO UInt32 := do
  match AccumulatorMachine.CommandLine.parse args with
  | none => do
    IO.eprintln AccumulatorMachine.Program.usage
    return 2
  | some o => AccumulatorMachine.Program.execute o

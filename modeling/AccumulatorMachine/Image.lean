import AccumulatorMachine.Files
import AccumulatorMachine.Machine.Access

/-!
# Images

The text form of an assembled program: one `OPCODE ARGUMENT` line per slot, starting at slot zero, a
line `-1`, and one `ADDRESS VALUE` line per initial cell. All numbers are in base 16. Blank lines count
as lines but say nothing.

## Main definitions

* `Image` — the instructions and the initial cells.
* `ImageError` — why a text is no image.
* `Image.ofLines` — reads an image; the first offending line decides the error.
* `Image.load` — writes an image into a processor.
-/

set_option autoImplicit false

namespace AccumulatorMachine

/-- An assembled program. -/
structure Image where
  /-- The instructions, from slot zero on. -/
  code : List Instruction
  /-- The cells to write, as addresses and words, in order. -/
  data : List (Int32 × Int32)
deriving DecidableEq

/-- What is wrong with a line of an image. -/
inductive ImageLineError where
  /-- The line has not two fields. -/
  | fields (line : List Char)
  /-- A field is no number of the kind asked for. -/
  | number (cause : NumberError)
deriving DecidableEq

/-- The wording of an error in a line. -/
def ImageLineError.message : ImageLineError → String
  | .fields line => "expected 2 hexadecimal fields, got '" ++ String.ofList line ++ "'"
  | .number cause => cause.message

/-- Why a text is no image. -/
inductive ImageError where
  /-- A line cannot be read. -/
  | unreadable (cause : ReadError)
  /-- A line is malformed; lines are counted from one. -/
  | line (number : Nat) (cause : ImageLineError)
deriving DecidableEq

/-- The wording of an image error. Only a malformed line is named by its number. -/
def ImageError.message : ImageError → String
  | .unreadable cause => cause.message
  | .line number cause => "line " ++ Numeral.decimal number ++ ": " ++ cause.message

namespace Image

/-- The line between code and data. -/
def separator : List Char := ['-', '1']

/-- The two fields of a trimmed line. -/
def twoFields (line : List Char) : Except ImageLineError (List Char × List Char) :=
  match Text.fields line with
  | [a, b] => .ok (a, b)
  | _ => .error (.fields line)

/-- The instruction of a trimmed code line. -/
def codeLine (line : List Char) : Except ImageLineError Instruction :=
  (twoFields line).bind fun (a, b) =>
    ((readOpcode a).bind fun opcode => (Word.read b).map (Instruction.mk opcode)).mapError .number

/-- The address and the word of a trimmed data line. -/
def dataLine (line : List Char) : Except ImageLineError (Int32 × Int32) :=
  (twoFields line).bind fun (a, b) =>
    ((Word.read a).bind fun address => (Word.read b).map (Prod.mk address)).mapError .number

/-- What has been read so far. -/
structure Draft where
  /-- The instructions. -/
  code : Array Instruction := #[]
  /-- The cells. -/
  data : Array (Int32 × Int32) := #[]
  /-- The separator has been passed. -/
  separated : Bool := false

/-- Reads one trimmed line that is not blank. -/
def Draft.line (s : Draft) (line : List Char) : Except ImageLineError Draft :=
  if s.separated then (dataLine line).map fun pair => { s with data := s.data.push pair }
  else if line = separator then .ok { s with separated := true }
  else (codeLine line).map fun i => { s with code := s.code.push i }

/-- Reads lines; the first of them has the number `number`. -/
def readFrom (number : Nat) (s : Draft) : List ReadLine → Except ImageError Draft
  | [] => .ok s
  | .error e :: _ => .error (.unreadable e)
  | .ok line :: rest =>
    if Text.trim line = [] then readFrom (number + 1) s rest
    else
      match s.line (Text.trim line) with
      | .error e => .error (.line number e)
      | .ok s => readFrom (number + 1) s rest

/-- The image that lines spell. -/
def ofLines (ls : List ReadLine) : Except ImageError Image :=
  (readFrom 1 {} ls).map fun s => ⟨s.code.toList, s.data.toList⟩

/-- The image that an opened file holds. -/
def ofReading : Reading → Except ImageError Image
  | .lines ls => ofLines ls
  | .failing e => .error (.unreadable e)

/-! ## Loading -/

/-- The operations that write an image: its slots, its cells, and the number of its instructions as the
program size. -/
def accesses (image : Image) : List Access :=
  image.code.zipIdx.map (fun (i, slot) => .writeCode slot i) ++
    image.data.map (fun (address, value) => .writeData address value) ++
    [.setProgramSize image.code.length]

/-- Writes an image into a processor. What precedes the first refused write stays written. -/
def load (image : Image) (p : Processor) : Except MemoryError Unit × Processor :=
  p.performAll image.accesses

end Image

end AccumulatorMachine

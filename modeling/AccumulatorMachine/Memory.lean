import AccumulatorMachine.Instruction

/-!
# Memory

Two separate address spaces. The code has 256 slots, each unset or holding an instruction; the data
has 512 cells, each holding a word. Addresses are words, and those outside a space are refused.

The memory also remembers the program size, which is the highest slot written since it was last set or
cleared, and the last cell written since the data was last cleared.

## Main definitions

* `Memory`, `Memory.empty` — the memory, and the one with no slot set and all cells zero.
* `MemoryError` — why an access is refused.
* `Memory.readCode`, `writeCode`, `readData`, `writeData` — single accesses.
* `Memory.readCodeRange`, `readDataRange` — the slots or cells from one index up to another.
* `Memory.clearCode`, `clearData`, `setProgramSize` — resets.

## Main results

* `Memory.readData_of_writeData`, `Memory.code_of_writeCode` — what is read after a write.
* `Memory.clearData_clearCode` — clearing both spaces leaves the empty memory.
-/

set_option autoImplicit false

namespace AccumulatorMachine

/-- The number of code slots. -/
abbrev codeSize : Nat := 256

/-- The number of data cells. -/
abbrev dataSize : Nat := 512

/-- Why an access to the memory is refused. -/
inductive MemoryError where
  /-- The address is outside the code. -/
  | codeAddress (address : Int32)
  /-- The slot has never been written. -/
  | unsetSlot (slot : Nat)
  /-- The address is outside the data. -/
  | dataAddress (address : Int32)
  /-- The range is reversed or leaves the space. -/
  | range (first last : Nat)
deriving DecidableEq

/-- The wording of a memory error. -/
def MemoryError.message : MemoryError → String
  | .codeAddress address =>
    "illegal access to code at address " ++ Numeral.decimal address.toInt ++
      ", code address max is 0x" ++ Numeral.upperHex 2 (codeSize - 1)
  | .unsetSlot slot =>
    "illegal access to code at address 0x" ++ Numeral.upperHex 2 slot ++ ", no instruction there"
  | .dataAddress address =>
    "illegal access to data at address " ++ Numeral.decimal address.toInt ++
      ", data address max is 0x" ++ Numeral.upperHex 3 (dataSize - 1)
  | .range first last =>
    "could not READ range 0x" ++ Numeral.upperHex 3 first ++ " → 0x" ++ Numeral.upperHex 3 last

/-- Code, data, and what has been written last. -/
structure Memory where
  /-- The slots. -/
  code : Vector (Option Instruction) codeSize
  /-- The cells. -/
  data : Vector Int32 dataSize
  /-- The highest slot written since this number was last set. -/
  programSize : Nat
  /-- The last cell written since the data was last cleared. -/
  changed : Option (Fin dataSize)
deriving DecidableEq

/-- The position that a word addresses in a space of a given size. -/
def position? (size : Nat) (address : Int32) : Option (Fin size) :=
  if h : 0 ≤ address.toInt ∧ address.toInt < size then some ⟨address.toInt.toNat, by omega⟩
  else none

/-- A word addresses a position exactly when it is the number of that position. -/
theorem position?_eq_some_iff {size : Nat} {address : Int32} {i : Fin size} :
    position? size address = some i ↔ address.toInt = i := by
  simp only [position?]
  split
  · simp only [Option.some.injEq, Fin.ext_iff]
    omega
  · simp only [reduceCtorEq, false_iff]
    omega

/-- A word addresses no position exactly when it is negative or too large. -/
theorem position?_eq_none_iff {size : Nat} {address : Int32} :
    position? size address = none ↔ ¬ (0 ≤ address.toInt ∧ address.toInt < size) := by
  simp [position?]

/-- A number that is a word addresses the position with this number, if there is one. -/
theorem position?_ofNat {size n : Nat} (hn : n < Word.limit) :
    position? size (Int32.ofNat n) = if h : n < size then some ⟨n, h⟩ else none := by
  have htoInt : (Int32.ofNat n).toInt = n := Int32.toInt_ofNat_of_lt hn
  split
  · rename_i h
    exact position?_eq_some_iff.2 htoInt
  · rw [position?_eq_none_iff, htoInt]
    omega

namespace Memory

/-- No slot set, every cell zero, nothing written. -/
def empty : Memory where
  code := Vector.replicate codeSize none
  data := Vector.replicate dataSize 0
  programSize := 0
  changed := none

/-! ## Code -/

/-- The instruction at an address. -/
def readCode (m : Memory) (address : Int32) : Except MemoryError Instruction :=
  match position? codeSize address with
  | none => .error (.codeAddress address)
  | some slot =>
    match m.code[slot] with
    | none => .error (.unsetSlot slot)
    | some i => .ok i

/-- Writes a slot and raises the program size to it. An index too large for a word is reported as the
greatest word. -/
def writeCode (m : Memory) (index : Nat) (i : Instruction) : Except MemoryError Memory :=
  if h : index < codeSize then
    .ok { m with code := m.code.set index (some i), programSize := max m.programSize index }
  else .error (.codeAddress (Int32.ofNat (min index (Word.limit - 1))))

/-- The slots from one index up to, and without, another. -/
def readCodeRange (m : Memory) (first last : Nat) : Except MemoryError (List (Option Instruction)) :=
  if first ≤ last ∧ last ≤ codeSize then .ok ((m.code.toList.take last).drop first)
  else .error (.range first last)

/-- Unsets every slot; the program is empty. -/
def clearCode (m : Memory) : Memory :=
  { m with code := Vector.replicate codeSize none, programSize := 0 }

/-- Sets the program size, whatever the slots hold. -/
def setProgramSize (m : Memory) (size : Nat) : Memory := { m with programSize := size }

/-! ## Data -/

/-- The word at an address. -/
def readData (m : Memory) (address : Int32) : Except MemoryError Int32 :=
  match position? dataSize address with
  | none => .error (.dataAddress address)
  | some cell => .ok m.data[cell]

/-- Writes a cell. -/
def writeData (m : Memory) (address : Int32) (value : Int32) : Except MemoryError Memory :=
  match position? dataSize address with
  | none => .error (.dataAddress address)
  | some cell => .ok { m with data := m.data.set cell value, changed := some cell }

/-- The cells from one index up to, and without, another. -/
def readDataRange (m : Memory) (first last : Nat) : Except MemoryError (List Int32) :=
  if first ≤ last ∧ last ≤ dataSize then .ok ((m.data.toList.take last).drop first)
  else .error (.range first last)

/-- Makes every cell zero; none counts as written. -/
def clearData (m : Memory) : Memory :=
  { m with data := Vector.replicate dataSize 0, changed := none }

/-! ## Description -/

/-- The number of slots that are set. -/
def setSlots (m : Memory) : Nat := m.code.toList.countP Option.isSome

/-- What a memory holds and the last cell written, on one line. -/
def summary (m : Memory) : String :=
  let last := match m.changed with
    | none => "None"
    | some cell => "Some(" ++ Numeral.decimal cell ++ ")"
  "Memory code=" ++ Numeral.decimal m.setSlots ++ " slots (program size " ++
    Numeral.decimal m.programSize ++ "), data=" ++ Numeral.decimal dataSize ++
    " words, last changed data=" ++ last

/-! ## Reading after writing -/

/-- A written cell holds the word written, and every other cell what it held before. -/
theorem readData_of_writeData {m m' : Memory} {address value : Int32}
    (h : m.writeData address value = .ok m') (other : Int32) :
    m'.readData other = if other = address then .ok value else m.readData other := by
  simp only [writeData] at h
  split at h
  · exact absurd h nofun
  · rename_i cell hc
    obtain rfl := Except.ok.inj h
    by_cases ho : other = address
    · subst ho
      simp [readData, hc]
    · rw [if_neg ho]
      simp only [readData]
      split
      · rfl
      · rename_i cell' hc'
        have hne : (cell : Nat) ≠ cell' := fun he =>
          ho (Int32.toInt_inj.1 (by
            rw [position?_eq_some_iff.1 hc', position?_eq_some_iff.1 hc, he]))
        simp [hne]

/-- A written slot holds the instruction written, and every other slot what it held before. -/
theorem code_of_writeCode {m m' : Memory} {index : Nat} {i : Instruction}
    (h : m.writeCode index i = .ok m') {slot : Nat} (hs : slot < codeSize) :
    m'.code[slot] = if index = slot then some i else m.code[slot] := by
  simp only [writeCode] at h
  split at h
  · obtain rfl := Except.ok.inj h
    simp [Vector.getElem_set]
  · exact absurd h nofun

/-- Writing a cell leaves the code alone. -/
theorem code_of_writeData {m m' : Memory} {address value : Int32}
    (h : m.writeData address value = .ok m') :
    m'.code = m.code ∧ m'.programSize = m.programSize := by
  simp only [writeData] at h
  split at h
  · exact absurd h nofun
  · obtain rfl := Except.ok.inj h
    exact ⟨rfl, rfl⟩

/-- Writing a slot leaves the data alone. -/
theorem data_of_writeCode {m m' : Memory} {index : Nat} {i : Instruction}
    (h : m.writeCode index i = .ok m') : m'.data = m.data ∧ m'.changed = m.changed := by
  simp only [writeCode] at h
  split at h
  · obtain rfl := Except.ok.inj h
    exact ⟨rfl, rfl⟩
  · exact absurd h nofun

/-- Clearing both spaces leaves the empty memory. -/
theorem clearData_clearCode (m : Memory) : m.clearCode.clearData = empty := rfl

end Memory

end AccumulatorMachine

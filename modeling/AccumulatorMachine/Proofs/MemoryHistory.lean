import AccumulatorMachine.Machine.Access
import Mathlib.Data.List.DropRight
import Mathlib.Tactic

/-!
# The memory is its history

All that a memory holds is settled by what has been asked of it: a slot holds what was written there
last, unless the code has been cleared since, and so for a cell. So a memory is two maps that are read
off a list of operations. What is refused leaves no mark, and neither does what only reads.

The program size follows a rule of its own. It can be set to any number, and goes on growing from there
with the slots that are written.

## Main definitions

* `Processor.performing` — the processor after some operations.
* `Access.slotWrite?`, `Access.cellWrite?` — what an operation writes, if it is accepted.
* `History.writesSince` — the writes since the last operation of some kind.
* `History.lastInstruction`, `lastWord`, `lastCell` — what was written last.
* `History.sizeBase`, `slotsSinceBase` — what the program size is made of.

## Main results

* `Processor.code_perform`, `data_perform`, `changed_perform`, `programSize_perform` — what one operation
  does to the memory.
* `History.Reflects.append` — it does the same to the history.
* `History.reflects_performing` — a memory holds what its history says.
* `History.reads_tell_history` — so every reading of it can be told from its history.
-/

set_option autoImplicit false

namespace AccumulatorMachine

/-- Carries out operations in order. One that is refused does not keep the others from being carried
out. -/
def Processor.performing (p : Processor) (history : List Access) : Processor :=
  history.foldl (fun p a => (p.perform a).2) p

/-! ## What one operation does -/

namespace Access

/-- The slot and the instruction that an operation writes, if it is accepted. -/
def slotWrite? : Access → Option (Nat × Instruction)
  | writeCode index i => if index < codeSize then some (index, i) else none
  | _ => none

/-- The cell and the word that an operation writes, if it is accepted. -/
def cellWrite? : Access → Option (Nat × Int32)
  | writeData address value =>
    if 0 ≤ address.toInt ∧ address.toInt < dataSize then some (address.toInt.toNat, value) else none
  | _ => none

/-- The program size that an operation sets, whatever has been written before. -/
def base? : Access → Option Nat
  | clearCode => some 0
  | setProgramSize size => some size
  | _ => none

end Access

/-! ## What a history tells -/

namespace History

/-- The writes since the last operation of some kind, or all of them. -/
def writesSince {β : Type} (reset : Access → Bool) (write? : Access → Option β)
    (history : List Access) : List β :=
  (history.rtakeWhile fun a => !reset a).filterMap write?

/-- What has been written last at an index. -/
def lastAt {β : Type} (writes : List (Nat × β)) (index : Nat) : Option β :=
  writes.reverse.lookup index

/-- The cells written since the data was cleared. -/
def cellWrites (history : List Access) : List (Nat × Int32) :=
  writesSince (· = .clearData) Access.cellWrite? history

/-- The instruction written last in a slot since the code was cleared. -/
def lastInstruction (history : List Access) (slot : Nat) : Option Instruction :=
  lastAt (writesSince (· = .clearCode) Access.slotWrite? history) slot

/-- The word written last in a cell since the data was cleared. -/
def lastWord (history : List Access) (cell : Nat) : Option Int32 := lastAt (cellWrites history) cell

/-- The cell written last since the data was cleared. -/
def lastCell (history : List Access) : Option Nat := (cellWrites history).getLast?.map Prod.fst

/-- The program size that was set last, which is zero at the start and when the code is cleared. -/
def sizeBase (history : List Access) : Nat := (history.reverse.findSome? Access.base?).getD 0

/-- The slots written since the program size was set. -/
def slotsSinceBase (history : List Access) : List Nat :=
  (writesSince (·.base?.isSome) Access.slotWrite? history).map Prod.fst

/-! ### One more operation -/

section Append

variable {β : Type} (reset : Access → Bool) (write? : Access → Option (Nat × β))
  (history : List Access) (a : Access)

/-- An operation adds what it writes, unless it sets everything back. -/
lemma writesSince_append :
    writesSince reset write? (history ++ [a]) =
      if reset a then [] else writesSince reset write? history ++ (write? a).toList := by
  rw [writesSince, List.rtakeWhile_concat]
  cases hreset : reset a with
  | true => simp
  | false => cases hw : write? a <;> simp [hw, writesSince]

/-- What an operation writes is what is found at its index from then on. -/
lemma lastAt_writesSince_append (index : Nat) :
    lastAt (writesSince reset write? (history ++ [a])) index =
      if reset a then none
      else (write? a).elim (lastAt (writesSince reset write? history) index) fun w =>
        if w.1 = index then some w.2 else lastAt (writesSince reset write? history) index := by
  rw [writesSince_append]
  cases reset a with
  | true => rfl
  | false =>
    cases write? a with
    | none => simp
    | some w =>
      rw [lastAt, lastAt, if_neg Bool.false_ne_true, Option.toList_some, List.reverse_append,
        List.reverse_singleton, List.singleton_append, List.lookup_cons]
      by_cases h : w.1 = index
      · simp [h]
      · simp [h, beq_eq_false_iff_ne.2 (Ne.symm h)]

/-- One more operation is the last to write a cell if it writes one, and there is none once the data is
cleared. -/
lemma lastCell_append :
    lastCell (history ++ [a]) =
      if a = .clearData then none else (a.cellWrite?.map Prod.fst).or (lastCell history) := by
  rw [lastCell, cellWrites, writesSince_append]
  by_cases h : a = .clearData
  · simp [h]
  · cases hw : a.cellWrite? <;> simp [h, lastCell, cellWrites]

/-- One more operation may set the program size anew. -/
lemma sizeBase_append : sizeBase (history ++ [a]) = a.base?.getD (sizeBase history) := by
  rw [sizeBase, List.reverse_append, List.reverse_singleton, List.singleton_append,
    List.findSome?_cons]
  cases a.base? <;> rfl

/-- It may write a slot otherwise, unless it sets the program size. -/
lemma slotsSinceBase_append :
    slotsSinceBase (history ++ [a]) =
      if a.base?.isSome then []
      else slotsSinceBase history ++ (a.slotWrite?.map Prod.fst).toList := by
  rw [slotsSinceBase, writesSince_append]
  cases a.base? with
  | some s => rfl
  | none => cases a.slotWrite? <;> simp [slotsSinceBase]

end Append

end History

/-! ## What one operation does to the memory -/

/-- A word is written if its address is that of a cell, and then nothing else changes. -/
lemma Memory.writeData_cases (m : Memory) (address value : Int32) :
    (∃ cell : Fin dataSize, address.toInt = cell ∧
        m.writeData address value =
          .ok { m with data := m.data.set cell value cell.isLt, changed := some cell }) ∨
      ¬ (0 ≤ address.toInt ∧ address.toInt < dataSize) ∧
        m.writeData address value = .error (.dataAddress address) := by
  rw [writeData]
  cases h : position? dataSize address with
  | none => exact Or.inr ⟨position?_eq_none_iff.1 h, rfl⟩
  | some cell => exact Or.inl ⟨cell, position?_eq_some_iff.1 h, rfl⟩

namespace Processor

variable (p : Processor) (a : Access)

/-- An operation clears all slots, writes one of them or leaves them as they are. -/
lemma code_perform {slot : Nat} (h : slot < codeSize) :
    (p.perform a).2.memory.code[slot] =
      if a = .clearCode then none
      else a.slotWrite?.elim p.memory.code[slot] fun w =>
        if w.1 = slot then some w.2 else p.memory.code[slot] := by
  cases a with
  | writeCode index i =>
    by_cases hindex : index < codeSize
    · simp [perform, store, Memory.writeCode, Access.slotWrite?, hindex, Vector.getElem_set]
    · simp [perform, store, Memory.writeCode, Access.slotWrite?, hindex]
  | writeData address value =>
    rcases p.memory.writeData_cases address value with ⟨cell, -, hw⟩ | ⟨-, hw⟩ <;>
      simp [perform, store, hw, Access.slotWrite?]
  | clearCode => simp [perform, Memory.clearCode]
  | _ => rfl

/-- An operation clears all cells, writes one of them or leaves them as they are. -/
lemma data_perform {cell : Nat} (h : cell < dataSize) :
    (p.perform a).2.memory.data[cell] =
      if a = .clearData then 0
      else a.cellWrite?.elim p.memory.data[cell] fun w =>
        if w.1 = cell then w.2 else p.memory.data[cell] := by
  cases a with
  | writeCode index i =>
    by_cases hindex : index < codeSize <;>
      simp [perform, store, Memory.writeCode, hindex, Access.cellWrite?]
  | writeData address value =>
    rcases p.memory.writeData_cases address value with ⟨written, haddress, hw⟩ | ⟨hout, hw⟩
    · simp [perform, store, hw, Access.cellWrite?, haddress, Vector.getElem_set]
    · rw [Access.cellWrite?, if_neg hout]
      simp [perform, store, hw]
  | clearData => simp [perform, Memory.clearData]
  | _ => rfl

/-- The cell that is remembered is the one written last, if the data is not cleared. -/
lemma changed_perform :
    (p.perform a).2.memory.changed.map Fin.val =
      if a = .clearData then none
      else (a.cellWrite?.map Prod.fst).or (p.memory.changed.map Fin.val) := by
  cases a with
  | writeCode index i =>
    by_cases hindex : index < codeSize <;>
      simp [perform, store, Memory.writeCode, hindex, Access.cellWrite?]
  | writeData address value =>
    rcases p.memory.writeData_cases address value with ⟨written, haddress, hw⟩ | ⟨hout, hw⟩
    · simp [perform, store, hw, Access.cellWrite?, haddress]
    · rw [Access.cellWrite?, if_neg hout]
      simp [perform, store, hw]
  | _ => rfl

/-- An operation sets the program size or raises it to the slot that it writes. -/
lemma programSize_perform :
    (p.perform a).2.memory.programSize =
      a.base?.getD ((a.slotWrite?.map Prod.fst).toList.foldl max p.memory.programSize) := by
  cases a with
  | writeCode index i =>
    by_cases hindex : index < codeSize <;>
      simp [perform, store, Memory.writeCode, hindex, Access.slotWrite?, Access.base?]
  | writeData address value =>
    rcases p.memory.writeData_cases address value with ⟨cell, -, hw⟩ | ⟨-, hw⟩ <;>
      simp [perform, store, hw, Access.slotWrite?, Access.base?]
  | _ => rfl

end Processor

namespace History

/-! ## The memory holds what its history says -/

/-- The memory holds what its history says. -/
structure Reflects (history : List Access) (m : Memory) : Prop where
  code : ∀ slot (h : slot < codeSize), m.code[slot] = lastInstruction history slot
  data : ∀ cell (h : cell < dataSize), m.data[cell] = (lastWord history cell).getD 0
  changed : m.changed.map Fin.val = lastCell history
  programSize : m.programSize = (slotsSinceBase history).foldl max (sizeBase history)

/-- A new memory has no history. -/
lemma reflects_nil : Reflects [] Memory.empty where
  code := by simp [Memory.empty, lastInstruction, lastAt, writesSince]
  data := by simp [Memory.empty, lastWord, cellWrites, lastAt, writesSince]
  changed := rfl
  programSize := rfl

/-- One more operation does to the memory what it does to the history. -/
lemma Reflects.append {history : List Access} {p : Processor} (h : Reflects history p.memory)
    (a : Access) : Reflects (history ++ [a]) (p.perform a).2.memory where
  code slot hslot := by
    rw [p.code_perform a hslot, h.code slot hslot]
    simp only [lastInstruction, lastAt_writesSince_append, decide_eq_true_eq]
  data cell hcell := by
    rw [p.data_perform a hcell, h.data cell hcell]
    simp only [lastWord, cellWrites, lastAt_writesSince_append, decide_eq_true_eq]
    by_cases hclear : a = .clearData
    · simp [hclear]
    · rw [if_neg hclear, if_neg hclear]
      cases a.cellWrite? with
      | none => rfl
      | some w => by_cases hw : w.1 = cell <;> simp [hw]
  changed := by rw [p.changed_perform a, h.changed, lastCell_append]
  programSize := by
    rw [p.programSize_perform a, h.programSize, sizeBase_append, slotsSinceBase_append]
    cases a.base? with
    | some size => rfl
    | none => simp

/-- **A memory holds what its history says.** -/
lemma reflects_performing (registers : Registers) (history : List Access) :
    Reflects history (Processor.performing { registers := registers } history).memory := by
  induction history using List.reverseRecOn with
  | nil => exact reflects_nil
  | append_singleton history a ih =>
    rw [Processor.performing, List.foldl_append]
    exact ih.append a

/-! ## Readings -/

section Readings

variable {history : List Access} {m : Memory}

/-- A slot is read as what its history says: the instruction written last, or that there is none. -/
lemma readCode_eq (h : Reflects history m) (address : Int32) :
    m.readCode address =
      if 0 ≤ address.toInt ∧ address.toInt < codeSize then
        (lastInstruction history address.toInt.toNat).elim
          (.error (.unsetSlot address.toInt.toNat)) .ok
      else .error (.codeAddress address) := by
  rw [Memory.readCode]
  cases hslot : position? codeSize address with
  | none => rw [if_neg (position?_eq_none_iff.1 hslot)]
  | some slot =>
    have haddress : address.toInt = slot := position?_eq_some_iff.1 hslot
    rw [if_pos (by omega), haddress, Int.toNat_natCast, ← h.code slot slot.isLt]
    cases hi : m.code[(slot : Nat)] <;> simp [hi]

/-- A cell is read as what its history says: the word written last, or zero. -/
lemma readData_eq (h : Reflects history m) (address : Int32) :
    m.readData address =
      if 0 ≤ address.toInt ∧ address.toInt < dataSize then
        .ok ((lastWord history address.toInt.toNat).getD 0)
      else .error (.dataAddress address) := by
  rw [Memory.readData]
  cases hcell : position? dataSize address with
  | none => rw [if_neg (position?_eq_none_iff.1 hcell)]
  | some cell =>
    have haddress : address.toInt = cell := position?_eq_some_iff.1 hcell
    rw [if_pos (by omega), haddress, Int.toNat_natCast, ← h.data cell cell.isLt]
    rfl

end Readings

end History

namespace Memory

/-! ### Ranges -/

variable (m : Memory) {first last : Nat}

/-- A slot that there is, is read as what it holds. -/
lemma readCode_ofNat {slot : Nat} (h : slot < codeSize) :
    (m.readCode (Int32.ofNat slot)).toOption = m.code[slot] := by
  rw [readCode, position?_ofNat (h.trans (by decide)), dif_pos h]
  cases hi : m.code[slot] <;> simp [hi, Except.toOption]

/-- So is a cell. -/
lemma readData_ofNat {cell : Nat} (h : cell < dataSize) :
    m.readData (Int32.ofNat cell) = .ok m.data[cell] := by
  rw [readData, position?_ofNat (h.trans (by decide)), dif_pos h]
  rfl

/-- A part of a list is what stands at its places. -/
lemma drop_take_eq_map {α β : Type} {l : List α} {f : Nat → β} {g : α → β} (hlast : last ≤ l.length)
    (hf : ∀ n (h : n < l.length), g l[n] = f n) :
    ((l.take last).drop first).map g = (List.range' first (last - first)).map f := by
  apply List.ext_getElem
  · simp only [List.length_map, List.length_drop, List.length_take, List.length_range']
    omega
  · intro k hk hk'
    simp only [List.length_map, List.length_range'] at hk'
    simp only [List.getElem_map, List.getElem_drop, List.getElem_take, List.getElem_range', one_mul]
    exact hf _ (by omega)

/-- The slots of a range are what is read slot by slot. -/
lemma readCodeRange_eq :
    m.readCodeRange first last =
      if first ≤ last ∧ last ≤ codeSize then
        .ok ((List.range' first (last - first)).map fun slot =>
          (m.readCode (Int32.ofNat slot)).toOption)
      else .error (.range first last) := by
  have hlength : m.code.toList.length = codeSize := m.code.length_toList
  rw [readCodeRange]
  split
  · rename_i h
    rw [← drop_take_eq_map (g := id) (l := m.code.toList) (by omega), List.map_id]
    intro slot hslot
    rw [readCode_ofNat m (by omega)]
    exact Vector.getElem_toList _
  · rfl

/-- The cells of a range are what is read cell by cell. -/
lemma readDataRange_eq :
    (m.readDataRange first last).map (List.map Except.ok) =
      if first ≤ last ∧ last ≤ dataSize then
        .ok ((List.range' first (last - first)).map fun cell => m.readData (Int32.ofNat cell))
      else .error (.range first last) := by
  have hlength : m.data.toList.length = dataSize := m.data.length_toList
  rw [readDataRange]
  split
  · rename_i h
    rw [← drop_take_eq_map (g := Except.ok) (l := m.data.toList) (by omega)]
    · rfl
    intro cell hcell
    rw [readData_ofNat m (by omega)]
    exact congrArg Except.ok (Vector.getElem_toList _)
  · rfl

end Memory

namespace Processor

/-! ### Writings -/

variable (p : Processor)

/-- A refused operation leaves everything as it was. -/
lemma perform_of_refused {a : Access} {e : MemoryError} (h : (p.perform a).1 = .error e) :
    (p.perform a).2 = p := by
  have hstore : ∀ r : Except MemoryError Memory, (p.store r).1 = .error e → (p.store r).2 = p := by
    intro r hr
    cases r with
    | error e' => rfl
    | ok m => cases hr
  cases a with
  | writeCode index i => exact hstore _ h
  | writeData address value => exact hstore _ h
  | readCode _ | readData _ | readCodeRange _ _ | readDataRange _ _ => rfl
  | clearCode | clearData | setProgramSize _ | setAccumulator _ | setCounter _ | resetRegisters
    | advance => cases h

/-- A write of a slot is accepted exactly if there is the slot. -/
lemma perform_writeCode_iff {index : Nat} {i : Instruction} :
    (p.perform (.writeCode index i)).1 = .ok .done ↔ index < codeSize := by
  by_cases h : index < codeSize <;> simp [perform, store, Memory.writeCode, h]

/-- A write of a cell is accepted exactly if there is the cell. -/
lemma perform_writeData_iff {address value : Int32} :
    (p.perform (.writeData address value)).1 = .ok .done ↔
      0 ≤ address.toInt ∧ address.toInt < dataSize := by
  rcases p.memory.writeData_cases address value with ⟨cell, haddress, hw⟩ | ⟨hout, hw⟩
  · simp only [perform, hw, store, true_iff]
    omega
  · simp only [perform, hw, store, reduceCtorEq, false_iff]
    exact hout

end Processor

/-- **Every reading of a memory is told by its history.** Whatever operations, accepted or refused, have
been asked of a processor with a new memory:

* a slot is read as what was written there last since the code was cleared, and a cell as what was
  written there last since the data was cleared, or as zero;
* a write is accepted exactly at the addresses that can be read, and a refused operation changes nothing;
* a range is read exactly if it is one, and then slot by slot or cell by cell;
* the cell that counts as written last is the one written last since the data was cleared;
* the program size is the greatest of the one that was set last and the slots written since. -/
theorem History.reads_tell_history (registers : Registers) (history : List Access) :
    let p := Processor.performing { registers := registers } history
    (∀ address : Int32, p.memory.readCode address =
        if 0 ≤ address.toInt ∧ address.toInt < codeSize then
          (lastInstruction history address.toInt.toNat).elim
            (.error (.unsetSlot address.toInt.toNat)) .ok
        else .error (.codeAddress address)) ∧
      (∀ address : Int32, p.memory.readData address =
        if 0 ≤ address.toInt ∧ address.toInt < dataSize then
          .ok ((lastWord history address.toInt.toNat).getD 0)
        else .error (.dataAddress address)) ∧
      (∀ index i, (p.perform (.writeCode index i)).1 = .ok .done ↔ index < codeSize) ∧
      (∀ address value, (p.perform (.writeData address value)).1 = .ok .done ↔
        0 ≤ address.toInt ∧ address.toInt < dataSize) ∧
      (∀ a e, (p.perform a).1 = .error e → (p.perform a).2 = p) ∧
      (∀ first last, p.memory.readCodeRange first last =
        if first ≤ last ∧ last ≤ codeSize then
          .ok ((List.range' first (last - first)).map fun slot =>
            (p.memory.readCode (Int32.ofNat slot)).toOption)
        else .error (.range first last)) ∧
      (∀ first last, (p.memory.readDataRange first last).map (List.map Except.ok) =
        if first ≤ last ∧ last ≤ dataSize then
          .ok ((List.range' first (last - first)).map fun cell =>
            p.memory.readData (Int32.ofNat cell))
        else .error (.range first last)) ∧
      p.memory.changed.map Fin.val = lastCell history ∧
      (sizeBase history :: slotsSinceBase history).max? = some p.memory.programSize := by
  intro p
  have hreflects : Reflects history p.memory := reflects_performing registers history
  refine ⟨readCode_eq hreflects, readData_eq hreflects, fun _ _ => p.perform_writeCode_iff,
    fun _ _ => p.perform_writeData_iff, fun _ _ => p.perform_of_refused,
    fun _ _ => p.memory.readCodeRange_eq, fun _ _ => p.memory.readDataRange_eq, hreflects.changed, ?_⟩
  rw [List.max?_cons', hreflects.programSize]

/-- Writes at the last addresses and behind them, and a program size set in between. -/
theorem History.reads_tell_history_refused_writes :
    ∃ (p : Processor) (history : List Access) (i : Instruction) (a : Access) (e : MemoryError),
      history = [.writeCode 255 i, .writeCode 256 i, .setProgramSize 2, .writeCode 9 i,
        .writeData 511 (-1), .writeData 512 7] ∧
      p = Processor.performing {} history ∧ p.memory.readCode 255 = .ok i ∧
      p.memory.readData 511 = .ok (-1) ∧ p.memory.programSize = 9 ∧
      a = .writeData 512 7 ∧ (p.perform a).1 = .error e ∧ (p.perform a).2 = p := by
  let i : Instruction := .assemble .lod .immediate 3
  let history : List Access := [.writeCode 255 i, .writeCode 256 i, .setProgramSize 2,
    .writeCode 9 i, .writeData 511 (-1), .writeData 512 7]
  obtain ⟨hcode, hdata, -, -, hrefused, -, -, -, hsize⟩ := reads_tell_history {} history
  have hfull : (Processor.performing {} history).memory.programSize = 9 := by
    rw [← Option.some_inj, ← hsize]
    decide
  have he : ((Processor.performing {} history).perform (.writeData 512 7)).1 =
      .error (.dataAddress 512) := by decide +kernel
  refine ⟨_, history, i, .writeData 512 7, _, rfl, rfl, ?_, ?_, hfull, rfl, he, hrefused _ _ he⟩
  · rw [hcode]
    decide
  · rw [hdata]
    decide

end AccumulatorMachine

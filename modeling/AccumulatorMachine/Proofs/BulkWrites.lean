import AccumulatorMachine.Proofs.LoadedPrograms

/-!
# Writing many places at once

A line of a script writes words or instructions to consecutive places. It goes on up to the first place
that there is not, and nothing that has been written by then is taken back. So a prefix of what was to
be written is left behind, and how long it is depends on where it begins.

Addresses of a script have 64 bits and those of the memory 32. None of the larger addresses wraps around
to a place that there is.

## Main definitions

* `Access.AlwaysRefused` — an operation that no processor carries out.
* `Access.IsWrite` — an operation that writes a slot or a cell, if any.
* `HoldsPrefix` — items stand from some place on, as far as there are places.
* `Access.writesFrom` — the operations that write items to consecutive places.
* `Script.HoldsWords`, `HoldsInstructions` — what a memory holds after a bulk write.

## Main results

* `Processor.performAll_of_refused` — operations up to one that is refused.
* `Processor.code_performing`, `data_performing`, `changed_performing`, `programSize_performing` — what
  several writes leave behind.
* `Script.bulk_writes_store_a_prefix` — writing words or instructions by a line of a script.
-/

set_option autoImplicit false

namespace AccumulatorMachine

/-! ## Operations that are refused -/

/-- No processor carries out the operation, and each gives the same reason. -/
def Access.AlwaysRefused (a : Access) (e : MemoryError) : Prop :=
  ∀ p : Processor, (p.perform a).1 = .error e

namespace Access

/-- A slot behind the last one is refused whatever is written, and the refusal names it as far as a word
can. -/
lemma alwaysRefused_writeCode {index : Nat} (h : codeSize ≤ index) (i : Instruction) :
    AlwaysRefused (.writeCode index i) (.codeAddress (Int32.ofNat (min index (Word.limit - 1)))) := by
  intro p
  rw [Processor.perform, Memory.writeCode, dif_neg (by omega)]
  rfl

/-- A cell outside the memory is refused whatever is written. -/
lemma alwaysRefused_writeData {address : Int32} (h : ¬ (0 ≤ address.toInt ∧ address.toInt < dataSize))
    (value : Int32) : AlwaysRefused (.writeData address value) (.dataAddress address) := by
  intro p
  rw [Processor.perform, Memory.writeData, position?_eq_none_iff.2 h]
  rfl

end Access

namespace Processor

variable {before later : List Access}

/-- Up to an operation that is refused, all of them are carried out, and none from there on. -/
lemma performAll_of_refused (hbefore : ∀ a ∈ before, a.NeverRefused) {a : Access} {e : MemoryError}
    (ha : a.AlwaysRefused e) (p : Processor) :
    p.performAll (before ++ a :: later) = (.error e, p.performing before) := by
  have hresult := ha (p.performing before)
  have hstate := perform_of_refused _ hresult
  rw [performAll_append hbefore, performAll]
  cases hperform : (p.performing before).perform a with
  | mk result q =>
    rw [hperform] at hresult hstate
    subst hresult hstate
    rfl

end Processor

/-! ## What several writes leave behind -/

/-- The operation writes a slot or a cell, if there is such a place. -/
def Access.IsWrite : Access → Prop
  | .writeCode _ _ | .writeData _ _ => True
  | _ => False

/-- The write at the end of a list is the one that is found at its index. -/
lemma History.lastAt_append {β : Type} (writes : List (Nat × β)) (w : Nat × β) (index : Nat) :
    lastAt (writes ++ [w]) index = if w.1 = index then some w.2 else lastAt writes index := by
  rw [lastAt, List.reverse_append, List.reverse_singleton, List.singleton_append, List.lookup_cons]
  by_cases h : w.1 = index
  · simp [h]
  · simp [h, lastAt, beq_eq_false_iff_ne.2 (Ne.symm h)]

/-- Memories are equal if they hold the same. -/
lemma Memory.eq_of_places {m m' : Memory}
    (hcode : ∀ slot (h : slot < codeSize), m.code[slot] = m'.code[slot])
    (hdata : ∀ cell (h : cell < dataSize), m.data[cell] = m'.data[cell])
    (hchanged : m.changed.map Fin.val = m'.changed.map Fin.val)
    (hsize : m.programSize = m'.programSize) : m = m' := by
  cases m
  cases m'
  obtain rfl := Vector.ext hcode
  obtain rfl := Vector.ext hdata
  obtain rfl := Option.map_injective Fin.val_injective hchanged
  obtain rfl := hsize
  rfl

/-- The greatest of some numbers is not changed by them. -/
lemma foldl_max_foldl_max (numbers : List Nat) (n : Nat) :
    numbers.foldl max (numbers.foldl max n) = numbers.foldl max n := by
  have hgreatest : ∀ k ∈ numbers, k ≤ numbers.foldl max n := fun k hk =>
    (List.max?_eq_some_iff.1 List.max?_cons').2 k (List.mem_cons_of_mem n hk)
  rw [← Option.some_inj, ← List.max?_cons', List.max?_eq_some_iff]
  exact ⟨List.mem_cons_self, List.forall_mem_cons.2 ⟨le_rfl, hgreatest⟩⟩

namespace Processor

section Writes

variable (p : Processor) {as : List Access}

/-- Accesses are performed in their order, so a list of them in two parts. -/
lemma performing_append (bs : List Access) :
    p.performing (as ++ bs) = (p.performing as).performing bs :=
  List.foldl_append

/-- One more access is performed on what the others leave. -/
lemma performing_concat (a : Access) : p.performing (as ++ [a]) = ((p.performing as).perform a).2 :=
  p.performing_append [a]

/-- Writes leave the registers alone. -/
lemma registers_performing (h : ∀ a ∈ as, a.IsWrite) : (p.performing as).registers = p.registers := by
  induction as using List.reverseRecOn with
  | nil => rfl
  | append_singleton as a ih =>
    rw [performing_concat, ← ih fun b hb => h b (List.mem_append_left _ hb)]
    have ha := h a (List.mem_concat_self)
    cases a with
    | writeCode index i =>
      rw [perform]
      cases (p.performing as).memory.writeCode index i <;> rfl
    | writeData address value =>
      rw [perform]
      cases (p.performing as).memory.writeData address value <;> rfl
    | _ => exact ha.elim

/-- A slot holds what was written there last. -/
lemma code_performing (h : ∀ a ∈ as, a.IsWrite) {slot : Nat} (hslot : slot < codeSize) :
    (p.performing as).memory.code[slot] =
      (History.lastAt (as.filterMap Access.slotWrite?) slot).or p.memory.code[slot] := by
  induction as using List.reverseRecOn with
  | nil => rfl
  | append_singleton as a ih =>
    have hclear : a ≠ .clearCode := by
      rintro rfl
      exact h _ List.mem_concat_self
    rw [performing_concat, code_perform _ a hslot, if_neg hclear,
      ih fun b hb => h b (List.mem_append_left _ hb), List.filterMap_append]
    cases hw : a.slotWrite? with
    | none => simp [hw]
    | some w =>
      rw [List.filterMap_cons_some hw, List.filterMap_nil, History.lastAt_append]
      by_cases hindex : w.1 = slot <;> simp [hindex]

/-- A cell holds what was written there last. -/
lemma data_performing (h : ∀ a ∈ as, a.IsWrite) {cell : Nat} (hcell : cell < dataSize) :
    (p.performing as).memory.data[cell] =
      (History.lastAt (as.filterMap Access.cellWrite?) cell).getD p.memory.data[cell] := by
  induction as using List.reverseRecOn with
  | nil => rfl
  | append_singleton as a ih =>
    have hclear : a ≠ .clearData := by
      rintro rfl
      exact h _ List.mem_concat_self
    rw [performing_concat, data_perform _ a hcell, if_neg hclear,
      ih fun b hb => h b (List.mem_append_left _ hb), List.filterMap_append]
    cases hw : a.cellWrite? with
    | none => simp [hw]
    | some w =>
      rw [List.filterMap_cons_some hw, List.filterMap_nil, History.lastAt_append]
      by_cases hindex : w.1 = cell <;> simp [hindex]

/-- The last write of a cell is the one that is remembered, or the one from before if there is none. -/
lemma changed_performing (h : ∀ a ∈ as, a.IsWrite) :
    (p.performing as).memory.changed.map Fin.val =
      ((as.filterMap Access.cellWrite?).map Prod.fst).getLast?.or (p.memory.changed.map Fin.val) := by
  induction as using List.reverseRecOn with
  | nil => rfl
  | append_singleton as a ih =>
    have hclear : a ≠ .clearData := by
      rintro rfl
      exact h _ List.mem_concat_self
    rw [performing_concat, changed_perform, if_neg hclear,
      ih fun b hb => h b (List.mem_append_left _ hb), List.filterMap_append]
    cases hw : a.cellWrite? <;> simp [hw]

/-- Writes of slots raise the program size to the greatest of their slots, and never lower it. -/
lemma programSize_performing (h : ∀ a ∈ as, a.IsWrite) :
    (p.performing as).memory.programSize =
      ((as.filterMap Access.slotWrite?).map Prod.fst).foldl max p.memory.programSize := by
  induction as using List.reverseRecOn with
  | nil => rfl
  | append_singleton as a ih =>
    have ha := h a List.mem_concat_self
    have hbase : a.base? = none := by
      cases a with
      | writeCode _ _ | writeData _ _ => rfl
      | _ => exact ha.elim
    rw [performing_concat, programSize_perform, hbase,
      ih fun b hb => h b (List.mem_append_left _ hb), List.filterMap_append]
    cases hw : a.slotWrite? <;> simp [hw]

/-- Writing the same again changes nothing. -/
lemma performing_performing (h : ∀ a ∈ as, a.IsWrite) :
    (p.performing as).performing as = p.performing as := by
  have hmemory : ((p.performing as).performing as).memory = (p.performing as).memory := by
    apply Memory.eq_of_places
    · intro slot hslot
      rw [code_performing _ h hslot, code_performing _ h hslot]
      cases History.lastAt (as.filterMap Access.slotWrite?) slot <;> rfl
    · intro cell hcell
      rw [data_performing _ h hcell, data_performing _ h hcell]
      cases History.lastAt (as.filterMap Access.cellWrite?) cell <;> rfl
    · rw [changed_performing _ h, changed_performing _ h]
      cases ((as.filterMap Access.cellWrite?).map Prod.fst).getLast? <;> rfl
    · rw [programSize_performing _ h, programSize_performing _ h, foldl_max_foldl_max]
  exact congrArg₂ Processor.mk (registers_performing _ h) hmemory

end Writes

end Processor

/-- A processor with the same registers brings another memory only. -/
lemma Machine.withProcessor_eq {m : Machine} {p : Processor} (h : p.registers = m.registers) :
    m.withProcessor p = { m with memory := p.memory } :=
  congrArg m.withProcessor (congrArg₂ Processor.mk h rfl)

/-! ## Consecutive places -/

/-- Items stand from some place on, as far as there are places. Every other place is as before. -/
structure HoldsPrefix {α : Type} {size : Nat} (first : Nat) (items : List α)
    (before after : Vector α size) : Prop where
  /-- Each item stands at its place, if there is one. -/
  written : ∀ offset (h : offset < items.length) (hplace : first + offset < size),
    after[first + offset] = items[offset]
  /-- Nothing else has been written. -/
  others : ∀ place (h : place < size), place < first ∨ first + items.length ≤ place →
    after[place] = before[place]

/-- Items with the places at which they are to stand. -/
def History.placed {β : Type} (first : Nat) (items : List β) : List (Nat × β) :=
  items.zipIdx.map fun (x, offset) => (first + offset, x)

/-- Operations that write items to consecutive places. -/
def Access.writesFrom {β : Type} (write : Nat → β → Access) (first : Nat) (items : List β) :
    List Access :=
  items.zipIdx.map fun (x, offset) => write (first + offset) x

section Placed

variable {β : Type} (first : Nat) (items : List β)

/-- Of items that are placed one behind the other, a place has the one that is put there. -/
lemma History.lastAt_placed (place : Nat) :
    lastAt (placed first items) place = if first ≤ place then items[place - first]? else none := by
  induction items using List.reverseRecOn with
  | nil => simp [placed, lastAt]
  | append_singleton items x ih =>
    have hplaced : placed first (items ++ [x]) =
        placed first items ++ [(first + items.length, x)] := by
      simp [placed, List.zipIdx_append]
    rw [hplaced, lastAt_append, ih]
    by_cases hfirst : first ≤ place
    · rw [if_pos hfirst, if_pos hfirst, List.getElem?_append]
      rcases Nat.lt_trichotomy (place - first) items.length with hlt | heq | hgt
      · rw [if_neg (by omega), if_pos hlt]
      · rw [if_pos (by omega), if_neg (by omega), heq]
        simp
      · rw [if_neg (by omega), if_neg (by omega), List.getElem?_eq_none (by omega),
          List.getElem?_eq_none (by simp; omega)]
    · rw [if_neg hfirst, if_neg hfirst, if_neg (by simp; omega)]

/-- The places are those from the first one on, as many as there are items. -/
lemma History.map_fst_placed : (placed first items).map Prod.fst = List.range' first items.length := by
  apply List.ext_getElem
  · simp [placed]
  · intro n hn hn'
    simp [placed]

/-- The greatest of some numbers in a row and a number from before is the last of the row, or the old
one. -/
lemma foldl_max_range' (old first n : Nat) :
    (List.range' first n).foldl max old = if n = 0 then old else max old (first + n - 1) := by
  induction n with
  | zero => rfl
  | succ n ih =>
    rw [List.range'_1_concat, List.foldl_append, ih, if_neg (Nat.succ_ne_zero n)]
    simp only [List.foldl_cons, List.foldl_nil]
    split <;> omega

/-- The last of some numbers in a row, if there are any. -/
lemma getLast?_range' (first n : Nat) :
    (List.range' first n).getLast? = if n = 0 then none else some (first + n - 1) := by
  cases n with
  | zero => rfl
  | succ n => simp [List.range'_1_concat]

/-- The places after a list of writes hold a prefix, if each holds what was written there last. -/
lemma holdsPrefix_of_getElem? {α : Type} {size first : Nat} {items : List α}
    {before after : Vector α size}
    (h : ∀ place (hplace : place < size), after[place] =
      if first ≤ place then (items[place - first]?).getD before[place] else before[place]) :
    HoldsPrefix first items before after where
  written offset hoffset hplace := by
    rw [h _ hplace, if_pos (Nat.le_add_right first offset), Nat.add_sub_cancel_left,
      List.getElem?_eq_getElem hoffset, Option.getD_some]
  others place hplace hout := by
    rw [h _ hplace]
    split
    · rw [List.getElem?_eq_none (by omega), Option.getD_none]
    · rfl

end Placed

section WritesFrom

variable {β : Type} {write : Nat → β → Access} {size : Nat} (first : Nat)

/-- Writes in a row go on where the first of them end. -/
lemma Access.writesFrom_append (xs ys : List β) :
    writesFrom write first (xs ++ ys) =
      writesFrom write first xs ++ writesFrom write (first + xs.length) ys := by
  have hshift : ys.zipIdx xs.length = ys.zipIdx.map fun (y, offset) => (y, xs.length + offset) :=
    List.zipIdx_eq_map_add
  rw [writesFrom, writesFrom, writesFrom, List.zipIdx_append, List.map_append, Nat.zero_add, hshift,
    List.map_map]
  simp only [Function.comp_def, Nat.add_assoc]

variable (write) in
/-- If the places end before the items do, there is a first item for which there is none. -/
lemma Access.exists_writesFrom_eq {items : List β} (hitems : items ≠ [])
    (h : size < first + items.length) :
    ∃ x rest, writesFrom write first items =
      writesFrom write first (items.take (size - first)) ++ write (max first size) x :: rest := by
  have hlength := List.length_pos_iff.2 hitems
  have hfirst : first + (items.take (size - first)).length = max first size := by
    rw [List.length_take]
    omega
  obtain ⟨x, rest, hrest⟩ : ∃ x rest, items.drop (size - first) = x :: rest :=
    List.exists_cons_of_length_pos (by rw [List.length_drop]; omega)
  have hcons : writesFrom write (max first size) (x :: rest) =
      write (max first size) x :: writesFrom write (max first size + 1) rest :=
    writesFrom_append (max first size) [x] rest
  refine ⟨x, writesFrom write (max first size + 1) rest, ?_⟩
  rw [← hcons, ← hrest, ← hfirst, ← writesFrom_append, List.take_append_drop]

/-- None of the writes that still fit is refused. -/
lemma Access.neverRefused_of_mem_writesFrom (hwithin : ∀ n < size, ∀ x, (write n x).NeverRefused)
    (items : List β) : ∀ a ∈ writesFrom write first (items.take (size - first)), a.NeverRefused := by
  intro a ha
  obtain ⟨⟨x, offset⟩, hmem, rfl⟩ := List.mem_map.1 ha
  have hoffset := (List.mem_zipIdx' hmem).1
  rw [List.length_take] at hoffset
  exact hwithin _ (by omega) x

/-- Writing items goes on up to the first place that there is not. -/
lemma Processor.performAll_writesFrom (hwithin : ∀ n < size, ∀ x, (write n x).NeverRefused)
    {e : MemoryError} (hbeyond : ∀ x, (write (max first size) x).AlwaysRefused e) (p : Processor)
    (items : List β) :
    p.performAll (Access.writesFrom write first items) =
      (if items = [] ∨ first + items.length ≤ size then .ok () else .error e,
        p.performing (Access.writesFrom write first (items.take (size - first)))) := by
  have hnever := Access.neverRefused_of_mem_writesFrom first hwithin items
  split
  · rename_i h
    have htake : items.take (size - first) = items := by
      rcases h with rfl | h
      · exact List.take_nil
      · exact List.take_of_length_le (by omega)
    rw [htake] at hnever ⊢
    exact performAll_eq hnever p
  · rename_i h
    rw [not_or, not_le] at h
    obtain ⟨x, rest, hsplit⟩ := Access.exists_writesFrom_eq write first h.1 h.2
    rw [hsplit]
    exact performAll_of_refused hnever (hbeyond x) p

variable {write? : Access → Option (Nat × β)}

/-- What consecutive writes have written where. -/
lemma Access.filterMap_writesFrom (hwrite : ∀ n < size, ∀ x, write? (write n x) = some (n, x))
    (items : List β) :
    (writesFrom write first (items.take (size - first))).filterMap write? =
      History.placed first (items.take (size - first)) := by
  rw [writesFrom, History.placed, List.filterMap_map, ← List.filterMap_eq_map]
  apply List.filterMap_congr
  rintro ⟨x, offset⟩ hmem
  have hoffset := (List.mem_zipIdx' hmem).1
  rw [List.length_take] at hoffset
  exact hwrite _ (by omega) x

/-- What stands at a place after consecutive writes. -/
lemma History.lastAt_placed_take {place : Nat} (hplace : place < size) (items : List β) :
    lastAt (placed first (items.take (size - first))) place =
      if first ≤ place then items[place - first]? else none := by
  rw [lastAt_placed]
  by_cases h : first ≤ place
  · rw [if_pos h, if_pos h, List.getElem?_take_of_lt (by omega)]
  · rw [if_neg h, if_neg h]

end WritesFrom

/-! ## Writing by a line of a script -/

namespace Script

/-- Instructions are written to slots in a row. -/
lemma slotWrites_eq (address : Nat) (instructions : List Instruction) :
    slotWrites address instructions = Access.writesFrom .writeCode address instructions := rfl

/-- Words are written to cells in a row, whose addresses are taken as words. -/
lemma cellWrites_eq (address : Nat) (words : List Int32) :
    cellWrites address words =
      Access.writesFrom (fun n w => .writeData (Int32.ofNat n) w) address words := rfl

/-- A number of a cell is that cell's address. -/
lemma inData_ofNat {n : Nat} (h : n < Word.limit) :
    (0 ≤ (Int32.ofNat n).toInt ∧ (Int32.ofNat n).toInt < dataSize) ↔ n < dataSize := by
  rw [Int32.toInt_ofNat_of_lt h]
  omega

/-- What a memory holds after words have been written to the cells from an address on. -/
structure HoldsWords (address : Nat) (words : List Int32) (before after : Memory) : Prop where
  /-- The words are in the cells, as far as there are cells. -/
  data : HoldsPrefix address words before.data after.data
  /-- The last of them that has been written counts as changed. -/
  changed : after.changed.map Fin.val =
    if words ≠ [] ∧ address < dataSize then some (min (address + words.length) dataSize - 1)
    else before.changed.map Fin.val
  code : after.code = before.code
  programSize : after.programSize = before.programSize

/-- What a memory holds after instructions have been written to the slots from an address on. -/
structure HoldsInstructions (address : Nat) (instructions : List Instruction)
    (before after : Memory) : Prop where
  /-- The instructions are in the slots, as far as there are slots. -/
  code : HoldsPrefix address (instructions.map some) before.code after.code
  /-- The program size is raised to the last slot that has been written. -/
  programSize : after.programSize =
    if instructions ≠ [] ∧ address < codeSize then
      max before.programSize (min (address + instructions.length) codeSize - 1)
    else before.programSize
  data : after.data = before.data
  changed : after.changed = before.changed

section Bulk

variable (address : Nat) (p : Processor)

/-- Cells that are there are written. -/
lemma holdsWords_performing (words : List Int32) :
    HoldsWords address words p.memory
      (p.performing (cellWrites address (words.take (dataSize - address)))).memory := by
  have hkind : ∀ n < dataSize, ∀ w,
      Access.cellWrite? (.writeData (Int32.ofNat n) w) = some (n, w) := by
    intro n hn w
    have hlimit : n < Word.limit := hn.trans (by decide)
    rw [Access.cellWrite?, if_pos ((inData_ofNat hlimit).2 hn), Int32.toInt_ofNat_of_lt hlimit]
    rfl
  have hwrites : ∀ a ∈ cellWrites address (words.take (dataSize - address)), a.IsWrite := by
    intro a ha
    obtain ⟨_, _, rfl⟩ := List.mem_map.1 ha
    trivial
  have hcells : (cellWrites address (words.take (dataSize - address))).filterMap Access.cellWrite? =
      History.placed address (words.take (dataSize - address)) :=
    Access.filterMap_writesFrom address hkind words
  have hslots : (cellWrites address (words.take (dataSize - address))).filterMap Access.slotWrite? =
      [] := by
    rw [cellWrites, List.filterMap_map]
    exact List.filterMap_eq_nil_iff.2 fun _ _ => rfl
  constructor
  · refine holdsPrefix_of_getElem? fun cell hcell => ?_
    rw [p.data_performing hwrites hcell, hcells, History.lastAt_placed_take address hcell]
    split <;> rfl
  · rw [p.changed_performing hwrites, hcells, History.map_fst_placed, getLast?_range',
      List.length_take]
    by_cases h : words ≠ [] ∧ address < dataSize
    · have hlength := List.length_pos_iff.2 h.1
      rw [if_pos h, if_neg (by omega), Option.some_or]
      congr 1
      omega
    · have hlength : min (dataSize - address) words.length = 0 := by
        rw [not_and_or, not_not, ← List.length_eq_zero_iff] at h
        omega
      rw [if_neg h, if_pos hlength, Option.none_or]
  · refine Vector.ext fun slot hslot => ?_
    rw [p.code_performing hwrites hslot, hslots]
    rfl
  · rw [p.programSize_performing hwrites, hslots]
    rfl

/-- Slots that are there are written. -/
lemma holdsInstructions_performing (instructions : List Instruction) :
    HoldsInstructions address instructions p.memory
      (p.performing (slotWrites address (instructions.take (codeSize - address)))).memory := by
  have hkind : ∀ n < codeSize, ∀ i, Access.slotWrite? (.writeCode n i) = some (n, i) :=
    fun n hn i => if_pos hn
  have hwrites : ∀ a ∈ slotWrites address (instructions.take (codeSize - address)), a.IsWrite := by
    intro a ha
    obtain ⟨_, _, rfl⟩ := List.mem_map.1 ha
    trivial
  have hslots : (slotWrites address (instructions.take (codeSize - address))).filterMap
      Access.slotWrite? = History.placed address (instructions.take (codeSize - address)) :=
    Access.filterMap_writesFrom address hkind instructions
  have hcells : (slotWrites address (instructions.take (codeSize - address))).filterMap
      Access.cellWrite? = [] := by
    rw [slotWrites, List.filterMap_map]
    exact List.filterMap_eq_nil_iff.2 fun _ _ => rfl
  constructor
  · refine holdsPrefix_of_getElem? fun slot hslot => ?_
    rw [p.code_performing hwrites hslot, hslots, History.lastAt_placed_take address hslot]
    split
    · rw [List.getElem?_map]
      cases instructions[slot - address]? <;> rfl
    · rfl
  · rw [p.programSize_performing hwrites, hslots, History.map_fst_placed, foldl_max_range',
      List.length_take]
    by_cases h : instructions ≠ [] ∧ address < codeSize
    · have hlength := List.length_pos_iff.2 h.1
      rw [if_pos h, if_neg (by omega)]
      omega
    · have hlength : min (codeSize - address) instructions.length = 0 := by
        rw [not_and_or, not_not, ← List.length_eq_zero_iff] at h
        omega
      rw [if_neg h, if_pos hlength]
  · refine Vector.ext fun cell hcell => ?_
    rw [p.data_performing hwrites hcell, hcells]
    rfl
  · refine Option.map_injective Fin.val_injective ?_
    rw [p.changed_performing hwrites, hcells]
    rfl

end Bulk

/-- Writing items on a machine goes on up to the first place that there is not, and writes the memory
only. -/
lemma prepare_writesFrom {β : Type} {write : Nat → β → Access} {size first : Nat}
    (hwithin : ∀ n < size, ∀ x, (write n x).NeverRefused) {e : MemoryError}
    (hbeyond : ∀ x, (write (max first size) x).AlwaysRefused e) (hwrite : ∀ n x, (write n x).IsWrite)
    (m : Machine) (items : List β) (report : String) :
    prepare m (Access.writesFrom write first items) report =
      (if items = [] ∨ first + items.length ≤ size then .ok (.setup [report]) else .error (.memory e),
        { m with memory := (m.toProcessor.performing
          (Access.writesFrom write first (items.take (size - first)))).memory }) := by
  have hwrites : ∀ a ∈ Access.writesFrom write first (items.take (size - first)), a.IsWrite := by
    intro a ha
    obtain ⟨_, _, rfl⟩ := List.mem_map.1 ha
    exact hwrite _ _
  rw [prepare, Processor.performAll_writesFrom first hwithin hbeyond,
    ← Machine.withProcessor_eq (m.toProcessor.registers_performing hwrites)]
  by_cases h : items = [] ∨ first + items.length ≤ size
  · rw [if_pos h, if_pos h]
  · rw [if_neg h, if_neg h]

/-- Writing words by a line writes those for which there are cells. -/
lemma writeWords_eq (m : Machine) (address : Nat) (words : List Int32) :
    writeWords m address words =
      (if words = [] ∨ address + words.length ≤ dataSize then
          .ok (.setup [wordsWritten words.length])
        else if Word.limit ≤ address then .error (.cell (.beyondWords address))
        else .error (.memory (.dataAddress (Int32.ofNat (max address dataSize)))),
        { m with memory := (m.toProcessor.performing
          (cellWrites address (words.take (dataSize - address)))).memory }) := by
  rw [writeWords]
  by_cases hfar : Word.limit ≤ address
  · -- No word is written, as there is no cell so far out.
    have hsize : dataSize < address := lt_of_lt_of_le (by decide) hfar
    have hsome : (words = [] ∨ address + words.length ≤ dataSize) ↔ words = [] := by
      have hbeyond : ¬ address + words.length ≤ dataSize := by omega
      rw [or_iff_left hbeyond]
    rw [Nat.sub_eq_zero_of_le hsize.le, List.take_zero]
    by_cases hwords : words = []
    · rw [if_neg fun h => h.1 hwords, if_pos (hsome.2 hwords), hwords]
      rfl
    · rw [if_pos ⟨hwords, hfar⟩, if_neg (hsome.not.2 hwords), if_pos hfar]
      rfl
  · have hwithin : ∀ n < dataSize, ∀ w,
        Access.NeverRefused (.writeData (Int32.ofNat n) w) := fun n hn =>
      Access.neverRefused_writeData ((inData_ofNat (hn.trans (by decide))).2 hn)
    have hmax : max address dataSize < Word.limit := max_lt (not_le.1 hfar) (by decide)
    have hbeyond : ∀ w, Access.AlwaysRefused (.writeData (Int32.ofNat (max address dataSize)) w)
        (.dataAddress (Int32.ofNat (max address dataSize))) :=
      Access.alwaysRefused_writeData ((inData_ofNat hmax).not.2 (not_lt.2 (le_max_right _ _)))
    rw [if_neg fun h => hfar h.2, if_neg hfar, cellWrites_eq]
    exact prepare_writesFrom hwithin hbeyond (fun _ _ => trivial) m words _

/-- Writing instructions by a line writes those for which there are slots. -/
lemma prepare_slotWrites (m : Machine) (address : Nat) (instructions : List Instruction)
    (report : String) :
    prepare m (slotWrites address instructions) report =
      (if instructions = [] ∨ address + instructions.length ≤ codeSize then .ok (.setup [report])
        else .error (.memory (.codeAddress
          (Int32.ofNat (min (max address codeSize) (Word.limit - 1))))),
        { m with memory := (m.toProcessor.performing
          (slotWrites address (instructions.take (codeSize - address)))).memory }) :=
  prepare_writesFrom (fun _ hn => Access.neverRefused_writeCode hn)
    (Access.alwaysRefused_writeCode (le_max_right address codeSize)) (fun _ _ => trivial) m
    instructions report

/-- **Bulk writes store a prefix.** A line that writes words to consecutive cells, or instructions to
consecutive slots, succeeds exactly if there is nothing to write or all the places are there. Whether it
succeeds or not, those items are written for which there is a place, and nothing else is changed but the
mark that tells what has been written last: the last changed cell, or the program size.

An address is any number, so none wraps around to a place that there is. A line that fails says which
address is the first that is refused. -/
theorem bulk_writes_store_a_prefix (files : Files) (steps : Nat) (m : Machine) (address : Nat) :
    (∀ words : List Int32, ∃ memory,
      Command.execute files steps m (.writeData address words) =
        (if words = [] ∨ address + words.length ≤ dataSize then
            .ok (.setup [wordsWritten words.length])
          else if Word.limit ≤ address then .error (.cell (.beyondWords address))
          else .error (.memory (.dataAddress (Int32.ofNat (max address dataSize)))),
          { m with memory := memory }) ∧
        HoldsWords address words m.memory memory) ∧
    ∀ instructions : List Instruction, ∃ memory,
      Command.execute files steps m (.writeCode address instructions) =
        (if instructions = [] ∨ address + instructions.length ≤ codeSize then
            .ok (.setup [instructionsWritten instructions.length])
          else .error (.memory (.codeAddress
            (Int32.ofNat (min (max address codeSize) (Word.limit - 1))))),
          { m with memory := memory }) ∧
        HoldsInstructions address instructions m.memory memory :=
  ⟨fun words => ⟨_, writeWords_eq m address words, holdsWords_performing address m.toProcessor words⟩,
    fun instructions => ⟨_, prepare_slotWrites m address instructions _,
      holdsInstructions_performing address m.toProcessor instructions⟩⟩

end Script

end AccumulatorMachine

import AccumulatorMachine.Proofs.BulkWrites

/-!
# Loading an image, step by step

An image is written slot by slot, then cell by cell, and the program size is set at last. Any of the
writes may be refused, and what has been written before stays. So a machine is left in one of three
states: with the whole image, with as many instructions as there are slots, or with all instructions and
the cells up to one that is not there. Only in the first of them has the program size been set.

What is carried out does not depend on the machine, nor on how often it has been carried out before.

## Main definitions

* `Image.lastWord` — the word of the last pair that names a cell.
* `Image.Leaves` — what a memory holds after instructions and cells have been written.

## Main results

* `Image.fits_or` — an image fits, or has too many instructions, or names a cell that is not there.
* `Image.load_of_fits`, `load_of_long`, `load_of_outside` — what loading comes to in each case.
* `Image.load_load` — loading an image once more changes nothing.
* `Image.load_leaves_known_state` — what is left of a machine.
-/

set_option autoImplicit false

namespace AccumulatorMachine

namespace Image

open Script

/-- The word of the last pair that names a cell. -/
def lastWord (pairs : List (Int32 × Int32)) (cell : Nat) : Option Int32 :=
  (pairs.reverse.find? fun pair => pair.1.toInt = (cell : Int)).map Prod.snd

/-- What a memory holds after instructions have been written from slot zero on, and then cells. -/
structure Leaves (instructions : List Instruction) (pairs : List (Int32 × Int32)) (size : Nat)
    (before after : Memory) : Prop where
  /-- The instructions are in the slots from zero on, and every other slot is as before. -/
  code : HoldsPrefix 0 (instructions.map some) before.code after.code
  /-- A cell holds the last word for it, and every other cell is as before. -/
  data : ∀ cell (h : cell < dataSize),
    after.data[cell] = (lastWord pairs cell).getD before.data[cell]
  /-- The last cell that has been written counts as changed. -/
  changed : after.changed.map Fin.val =
    (pairs.getLast?.map fun pair => pair.1.toInt.toNat).or (before.changed.map Fin.val)
  programSize : after.programSize = size

/-- The operations that write cells. -/
def pairWrites (pairs : List (Int32 × Int32)) : List Access :=
  pairs.map fun (address, value) => .writeData address value

section Load

variable {instructions : List Instruction} {pairs : List (Int32 × Int32)}

/-- What has been written last in a cell is the last word for it. -/
lemma lastAt_pairs (h : ∀ pair ∈ pairs, 0 ≤ pair.1.toInt ∧ pair.1.toInt < dataSize) (cell : Nat) :
    History.lastAt (pairs.map fun pair => (pair.1.toInt.toNat, pair.2)) cell =
      lastWord pairs cell := by
  induction pairs using List.reverseRecOn with
  | nil => rfl
  | append_singleton pairs pair ih =>
    have hpair := h pair List.mem_concat_self
    have hiff : pair.1.toInt.toNat = cell ↔ pair.1.toInt = (cell : Int) := by omega
    rw [List.map_append, List.map_singleton, History.lastAt_append,
      ih fun other hother => h other (List.mem_append_left _ hother), lastWord, lastWord,
      List.reverse_append, List.reverse_singleton, List.singleton_append, List.find?_cons]
    by_cases hcell : pair.1.toInt = (cell : Int)
    · rw [if_pos (hiff.2 hcell), decide_eq_true hcell]
      rfl
    · rw [if_neg (hiff.not.2 hcell), decide_eq_false hcell]

/-- Loading an image writes slots and cells, apart from the program size. -/
lemma isWrite_of_mem_writes (instructions : List Instruction) (pairs : List (Int32 × Int32)) :
    ∀ a ∈ slotWrites 0 instructions ++ pairWrites pairs, a.IsWrite := by
  intro a ha
  rcases List.mem_append.1 ha with ha | ha
  · obtain ⟨_, _, rfl⟩ := List.mem_map.1 ha
    trivial
  · obtain ⟨_, _, rfl⟩ := List.mem_map.1 ha
    trivial

/-- Slots and cells that are there are written. -/
lemma leaves_performing (hcode : instructions.length ≤ codeSize)
    (hpairs : ∀ pair ∈ pairs, 0 ≤ pair.1.toInt ∧ pair.1.toInt < dataSize) (p : Processor) :
    Leaves instructions pairs
      (if instructions = [] then p.memory.programSize
        else max p.memory.programSize (instructions.length - 1))
      p.memory (p.performing (slotWrites 0 instructions ++ pairWrites pairs)).memory := by
  have hslots := holdsInstructions_performing 0 p instructions
  rw [Nat.sub_zero, List.take_of_length_le hcode] at hslots
  have hwrites : ∀ a ∈ pairWrites pairs, a.IsWrite := fun a ha =>
    isWrite_of_mem_writes [] pairs a ha
  have hno : (pairWrites pairs).filterMap Access.slotWrite? = [] := by
    rw [pairWrites, List.filterMap_map]
    exact List.filterMap_eq_nil_iff.2 fun _ _ => rfl
  have hcells : (pairWrites pairs).filterMap Access.cellWrite? =
      pairs.map fun pair => (pair.1.toInt.toNat, pair.2) := by
    rw [pairWrites, List.filterMap_map, ← List.filterMap_eq_map]
    exact List.filterMap_congr fun pair hpair => if_pos (hpairs pair hpair)
  rw [p.performing_append]
  constructor
  · have hcode : ((p.performing (slotWrites 0 instructions)).performing
        (pairWrites pairs)).memory.code =
          (p.performing (slotWrites 0 instructions)).memory.code := by
      refine Vector.ext fun slot hslot => ?_
      rw [Processor.code_performing _ hwrites hslot, hno]
      rfl
    rw [hcode]
    exact hslots.code
  · intro cell hcell
    rw [Processor.data_performing _ hwrites hcell, hcells, lastAt_pairs hpairs]
    simp only [hslots.data]
  · rw [Processor.changed_performing _ hwrites, hcells, hslots.changed, List.map_map,
      List.getLast?_map]
    rfl
  · rw [Processor.programSize_performing _ hwrites, hno, List.map_nil, List.foldl_nil,
      hslots.programSize]
    by_cases h : instructions = []
    · rw [if_pos h, if_neg fun hne => hne.1 h]
    · rw [if_neg h, if_pos ⟨h, by decide⟩]
      omega

variable (image : Image) (p : Processor)

/-- An image is loaded by writing its code, then its data, and setting the program size at last. -/
lemma accesses_eq_append :
    image.accesses =
      slotWrites 0 image.code ++ (pairWrites image.data ++ [.setProgramSize image.code.length]) := by
  rw [accesses_eq, writes, List.append_assoc]
  rfl

variable {image}

/-- None of the writes of an image that fits is refused. -/
lemma Fits.neverRefused_writes (h : image.Fits) :
    ∀ a ∈ slotWrites 0 image.code ++ pairWrites image.data, a.NeverRefused := by
  intro a ha
  refine h.neverRefused a ?_
  rw [accesses_eq_append, ← List.append_assoc]
  exact List.mem_append_left _ ha

/-- An image that fits is written, and its size is set. -/
lemma load_of_fits (h : image.Fits) :
    image.load p = (.ok (), (p.performing
      (slotWrites 0 image.code ++ pairWrites image.data)).withSize image.code.length) := by
  rw [load, Processor.performAll_eq h.neverRefused, accesses_eq_append, ← List.append_assoc,
    Processor.performing_concat]
  rfl

/-- Of an image that is too long, as many instructions are written as there are slots. -/
lemma load_of_long (h : codeSize < image.code.length) :
    image.load p = (.error (.codeAddress (Int32.ofNat codeSize)),
      p.performing (slotWrites 0 (image.code.take codeSize) ++ pairWrites [])) := by
  have hnever : ∀ a ∈ slotWrites 0 (image.code.take codeSize), a.NeverRefused :=
    Access.neverRefused_of_mem_writesFrom 0 (fun _ hn => Access.neverRefused_writeCode hn) image.code
  obtain ⟨i, rest, hsplit⟩ := Access.exists_writesFrom_eq .writeCode 0
    (List.ne_nil_of_length_pos (Nat.zero_lt_of_lt h)) (by rwa [Nat.zero_add])
  rw [load, accesses_eq_append, slotWrites_eq, hsplit, List.append_assoc, List.cons_append]
  exact (Processor.performAll_of_refused hnever (Access.alwaysRefused_writeCode le_rfl i) p).trans
    (by rw [pairWrites, List.map_nil, List.append_nil]; rfl)

/-- Up to a cell that is not there, all is written. -/
lemma load_of_outside (h : image.code.length ≤ codeSize) {before later : List (Int32 × Int32)}
    {pair : Int32 × Int32} (hdata : image.data = before ++ pair :: later)
    (hbefore : ∀ earlier ∈ before, 0 ≤ earlier.1.toInt ∧ earlier.1.toInt < dataSize)
    (hpair : ¬ (0 ≤ pair.1.toInt ∧ pair.1.toInt < dataSize)) :
    image.load p = (.error (.dataAddress pair.1),
      p.performing (slotWrites 0 image.code ++ pairWrites before)) := by
  -- The image without the cells from there on fits.
  have hfits : Fits ⟨image.code, before⟩ := ⟨h, hbefore⟩
  have hsplit : image.accesses = (slotWrites 0 image.code ++ pairWrites before) ++
      .writeData pair.1 pair.2 :: (pairWrites later ++ [.setProgramSize image.code.length]) := by
    rw [accesses_eq_append, hdata, pairWrites, List.map_append, List.map_cons]
    simp only [List.append_assoc, List.cons_append]
    rfl
  rw [load, hsplit]
  exact Processor.performAll_of_refused hfits.neverRefused_writes
    (Access.alwaysRefused_writeData hpair pair.2) p

/-- An image does not fit for one of two reasons. -/
lemma fits_or (image : Image) :
    image.Fits ∨ codeSize < image.code.length ∨
      image.code.length ≤ codeSize ∧ ∃ (before later : List (Int32 × Int32)) (pair : Int32 × Int32),
        image.data = before ++ pair :: later ∧
          (∀ earlier ∈ before, 0 ≤ earlier.1.toInt ∧ earlier.1.toInt < dataSize) ∧
          ¬ (0 ≤ pair.1.toInt ∧ pair.1.toInt < dataSize) := by
  rcases lt_or_ge codeSize image.code.length with hcode | hcode
  · exact .inr (.inl hcode)
  cases hfind : image.data.find? fun pair : Int32 × Int32 =>
      ¬ (0 ≤ pair.1.toInt ∧ pair.1.toInt < dataSize) with
  | none =>
    rw [List.find?_eq_none] at hfind
    refine .inl ⟨hcode, fun pair hpair => ?_⟩
    simpa using hfind pair hpair
  | some pair =>
    obtain ⟨hpair, before, later, hdata, hbefore⟩ := List.find?_eq_some_iff_append.1 hfind
    refine .inr (.inr ⟨hcode, before, later, pair, hdata, fun earlier hmem => ?_, ?_⟩)
    · simpa using hbefore earlier hmem
    · exact of_decide_eq_true hpair

variable (image)

/-- Loading writes the memory only. -/
lemma registers_load : (image.load p).2.registers = p.registers := by
  rcases image.fits_or with h | h | ⟨h, before, later, pair, hdata, hbefore, hpair⟩
  · rw [load_of_fits p h]
    exact p.registers_performing (isWrite_of_mem_writes _ _)
  · rw [load_of_long p h]
    exact p.registers_performing (isWrite_of_mem_writes _ _)
  · rw [load_of_outside p h hdata hbefore hpair]
    exact p.registers_performing (isWrite_of_mem_writes _ _)

/-- Loading an image once more does the same again, and changes nothing. -/
lemma load_load : image.load (image.load p).2 = image.load p := by
  have hagain : ∀ instructions pairs, (p.performing
      (slotWrites 0 instructions ++ pairWrites pairs)).performing
        (slotWrites 0 instructions ++ pairWrites pairs) =
      p.performing (slotWrites 0 instructions ++ pairWrites pairs) :=
    fun instructions pairs => p.performing_performing (isWrite_of_mem_writes _ _)
  rcases image.fits_or with h | h | ⟨h, before, later, pair, hdata, hbefore, hpair⟩
  · -- The size does not matter to the writes, and it is set again behind them.
    obtain ⟨size, hsize⟩ := (p.performing (slotWrites 0 image.code ++
      pairWrites image.data)).performAll_withSize image.code.length
        (slotWrites 0 image.code ++ pairWrites image.data)
    rw [Processor.performAll_eq h.neverRefused_writes, Processor.performAll_eq h.neverRefused_writes,
      hagain] at hsize
    rw [load_of_fits p h, load_of_fits _ h, (Prod.mk.inj hsize).2]
    rfl
  · rw [load_of_long p h, load_of_long _ h, hagain]
  · rw [load_of_outside p h hdata hbefore hpair, load_of_outside _ h hdata hbefore hpair, hagain]

end Load

/-- **Loading an image leaves a known state.** An image can be loaded on every machine exactly if it fits
into the memory. Then its instructions are in the slots from zero on, each cell that it names holds the
last word for it, and the program size is the number of its instructions.

An image with too many instructions fills the code and writes no cell. If only some cell is not there,
all instructions are written and just the cells before it. In both cases the program size is raised to
the last slot that has been written. Whatever has happened, nothing but the memory of the machine is
changed, and loading the same image once more does the same and changes nothing. -/
theorem load_leaves_known_state (image : Image) (m : Machine) :
    let loaded := image.load m.toProcessor
    let after := m.withProcessor loaded.2
    (loaded.1 = .ok () ↔ image.Fits) ∧
      (image.Fits →
        Leaves image.code image.data image.code.length m.memory after.memory) ∧
      (codeSize < image.code.length →
        loaded.1 = .error (.codeAddress (Int32.ofNat codeSize)) ∧
          Leaves (image.code.take codeSize) [] (max m.memory.programSize (codeSize - 1)) m.memory
            after.memory) ∧
      (image.code.length ≤ codeSize → ∀ (before later : List (Int32 × Int32)) (pair : Int32 × Int32),
        image.data = before ++ pair :: later →
        (∀ earlier ∈ before, 0 ≤ earlier.1.toInt ∧ earlier.1.toInt < dataSize) →
        ¬ (0 ≤ pair.1.toInt ∧ pair.1.toInt < dataSize) →
        loaded.1 = .error (.dataAddress pair.1) ∧
          Leaves image.code before
            (if image.code = [] then m.memory.programSize
              else max m.memory.programSize (image.code.length - 1))
            m.memory after.memory) ∧
      after = { m with memory := after.memory } ∧
      image.load after.toProcessor = loaded := by
  intro loaded after
  refine ⟨⟨fun hok => ?_, fun h => ?_⟩, fun h => ?_, fun h => ?_,
    fun h before later pair hdata hbefore hpair => ?_,
    Machine.withProcessor_eq (image.registers_load m.toProcessor), image.load_load m.toProcessor⟩
  · rcases image.fits_or with h | h | ⟨h, before, later, pair, hdata, hbefore, hpair⟩
    · exact h
    · simp only [loaded, load_of_long _ h, reduceCtorEq] at hok
    · simp only [loaded, load_of_outside _ h hdata hbefore hpair, reduceCtorEq] at hok
  · exact congrArg Prod.fst (load_of_fits m.toProcessor h)
  · have hleaves := leaves_performing h.code h.data m.toProcessor
    show Leaves _ _ _ _ loaded.2.memory
    rw [show loaded = _ from load_of_fits m.toProcessor h]
    exact ⟨hleaves.code, hleaves.data, hleaves.changed, rfl⟩
  · have hlength : (image.code.take codeSize).length = codeSize := List.length_take_of_le h.le
    have hne : image.code.take codeSize ≠ [] := List.ne_nil_of_length_pos (by rw [hlength]; decide)
    have hleaves : Leaves (image.code.take codeSize) [] _ _ _ :=
      leaves_performing hlength.le (fun _ hmem => (List.not_mem_nil hmem).elim) m.toProcessor
    rw [if_neg hne, hlength] at hleaves
    rw [show after.memory = loaded.2.memory from rfl,
      show loaded = _ from load_of_long m.toProcessor h]
    exact ⟨rfl, hleaves⟩
  · rw [show after.memory = loaded.2.memory from rfl,
      show loaded = _ from load_of_outside m.toProcessor h hdata hbefore hpair]
    exact ⟨rfl, leaves_performing h hbefore m.toProcessor⟩

/-- An image that names a cell twice before one that is not there, and a machine with a longer
program. -/
theorem load_leaves_known_state_outside :
    ∃ (image : Image) (i : Instruction) (m after : Machine),
      image = ⟨[i], [(5, 1), (5, 2), (512, 3), (6, 4)]⟩ ∧
      m = { memory := Memory.empty.setProgramSize 9 } ∧
      image.load m.toProcessor = (.error (.dataAddress 512), after.toProcessor) ∧
      after.memory.code[0] = some i ∧ after.memory.data[5] = 2 ∧ after.memory.data[6] = 0 ∧
      after.memory.programSize = 9 ∧
      image.load after.toProcessor = (.error (.dataAddress 512), after.toProcessor) := by
  let i : Instruction := .assemble .lod .immediate 3
  let image : Image := ⟨[i], [(5, 1), (5, 2), (512, 3), (6, 4)]⟩
  let m : Machine := { memory := Memory.empty.setProgramSize 9 }
  obtain ⟨-, -, -, houtside, -, hagain⟩ := image.load_leaves_known_state m
  have hbefore : ∀ earlier ∈ [((5 : Int32), (1 : Int32)), (5, 2)],
      0 ≤ earlier.1.toInt ∧ earlier.1.toInt < dataSize :=
    List.forall_mem_cons.2 ⟨by decide, List.forall_mem_singleton.2 (by decide)⟩
  obtain ⟨herror, hleaves⟩ :=
    houtside (by decide) [(5, 1), (5, 2)] [(6, 4)] (512, 3) rfl hbefore (by decide)
  have hload : image.load m.toProcessor =
      (.error (.dataAddress 512), (m.withProcessor (image.load m.toProcessor).2).toProcessor) :=
    Prod.ext herror rfl
  exact ⟨image, i, m, _, rfl, rfl, hload, hleaves.code.written 0 (by decide) (by decide),
    hleaves.data 5 (by decide), hleaves.data 6 (by decide), hleaves.programSize,
    hagain.trans hload⟩

end Image

end AccumulatorMachine

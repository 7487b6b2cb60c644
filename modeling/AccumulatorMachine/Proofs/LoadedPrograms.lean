import AccumulatorMachine.Proofs.FirstFailure
import AccumulatorMachine.Proofs.MemoryHistory
import AccumulatorMachine.Proofs.ProgramSize
import AccumulatorMachine.Proofs.WrittenCommands
import AccumulatorMachine.Proofs.WrittenImages

/-!
# Loading a program is writing it by hand

A program gets into a machine in two ways. An image is read from a file, whose lines are cut into fields
at blanks, and it is loaded by one line of a script. Or a script spells the instructions as a list and
each cell on a line of its own. The two ways have a reader each, but they spell the same numbers, and
what is read is written in the same order: the slots from zero on, then the cells, so that a cell that
is named twice ends with its last word.

What is left is the program size: loading sets it to the number of instructions, and writing slots
raises it to the last of them. No script can tell.

## Main definitions

* `Access.NeverRefused` — an operation that every processor carries out.
* `Image.WrittenByHand` — the lines of a script that write an image.
* `Script.Prepares` — lines that prepare a machine, none of which fails.

## Main results

* `Processor.performAll_eq` — operations that are never refused are all carried out.
* `Command.ofLine_write` — a written sentence is read as the command that it says.
* `Script.loading_is_writing_by_hand` — the two ways lead to machines that no script tells apart.
-/

set_option autoImplicit false

namespace AccumulatorMachine

/-! ## Operations that are never refused -/

/-- Every processor carries out the operation. -/
def Access.NeverRefused (a : Access) : Prop := ∀ p : Processor, ∃ answer, (p.perform a).1 = .ok answer

namespace Access

/-- A slot that there is can be written. -/
lemma neverRefused_writeCode {index : Nat} (h : index < codeSize) (i : Instruction) :
    NeverRefused (.writeCode index i) := by
  intro p
  refine ⟨.done, ?_⟩
  rw [Processor.perform, Memory.writeCode, dif_pos h]
  rfl

/-- So can a cell that there is. -/
lemma neverRefused_writeData {address : Int32} (h : 0 ≤ address.toInt ∧ address.toInt < dataSize)
    (value : Int32) : NeverRefused (.writeData address value) := by
  intro p
  refine ⟨.done, ?_⟩
  rw [Processor.perform, Memory.writeData]
  cases hcell : position? dataSize address with
  | none => exact absurd h (position?_eq_none_iff.1 hcell)
  | some cell => rfl

/-- The program size can be set to anything. -/
lemma neverRefused_setProgramSize (size : Nat) : NeverRefused (.setProgramSize size) :=
  fun _ => ⟨.done, rfl⟩

end Access

namespace Processor

variable {as : List Access}

/-- After operations that are never refused come the others. -/
lemma performAll_append (h : ∀ a ∈ as, a.NeverRefused) (p : Processor) (bs : List Access) :
    p.performAll (as ++ bs) = (p.performing as).performAll bs := by
  induction as generalizing p with
  | nil => rfl
  | cons a as ih =>
    obtain ⟨answer, ha⟩ := h a List.mem_cons_self p
    have hrest := ih (fun b hb => h b (List.mem_cons_of_mem a hb)) (p.perform a).2
    rw [List.cons_append, performAll]
    cases hperform : p.perform a with
    | mk result q =>
      rw [hperform] at ha hrest
      subst ha
      rw [performing, List.foldl_cons, hperform]
      exact hrest

/-- Operations that are never refused are all carried out. -/
lemma performAll_eq (h : ∀ a ∈ as, a.NeverRefused) (p : Processor) :
    p.performAll as = (.ok (), p.performing as) := by
  rw [← List.append_nil as, performAll_append h, List.append_nil]
  rfl

end Processor

/-! ## Writing by hand -/

namespace Script

/-- One blank is a gap. -/
lemma isGap_space : IsGap [' '] := ⟨List.cons_ne_nil ' ' [], List.forall_mem_singleton.2 (by decide)⟩

/-- A text stands for a word in a list: as in an image, but a plus sign is not allowed. -/
structure SpellsWord (text : List Char) (w : Int32) : Prop where
  isSignedHex : IsSignedHex text
  writtenAs : Word.WrittenAs w text

/-- Two texts stand for an instruction in a list. The opcode has no more than two digits. -/
structure SpellsInstruction (spelled : List Char × List Char) (i : Instruction) : Prop where
  opcode : Numeral.SpellsNat spelled.1 i.opcode.toNat
  length_opcode : spelled.1.length ≤ 2
  arg : SpellsWord spelled.2 i.arg

/-- The line of a script that writes instructions from slot zero on. -/
inductive CodeByHand (code : List Instruction) : List Char → Prop where
  | line {gap zero : List Char} {spelled : List (List Char × List Char)} (hgap : IsGap gap)
    (hzero : Numeral.SpellsNat zero 0) (hspelled : List.Forall₂ SpellsInstruction spelled code) :
    CodeByHand code ((Sentence.writeCode zero spelled).write gap)

/-- The line of a script that writes one cell. -/
inductive CellByHand (cell : Int32 × Int32) : List Char → Prop where
  | line {gap address value : List Char} (hgap : IsGap gap)
    (haddress : Numeral.SpellsNat address cell.1.toInt.toNat) (hvalue : SpellsWord value cell.2) :
    CellByHand cell ((Sentence.writeData address [value]).write gap)

/-- A line of a script that loads an image from a file in which it is written. -/
inductive LoadsImage (files : Files) (image : Image) : List Char → Prop where
  | line {gap file : List Char} {text : String} {ls : List (List Char)} (hgap : IsGap gap)
    (hname : IsFileName file) (hfile : files (String.ofList file) = .regular text.toUTF8)
    (htext : Text.HasLines text.toList ls) (himage : image.WrittenAs ls) :
    LoadsImage files image ((Sentence.load file).write gap)

end Script

namespace Image

open Script

/-- The lines of a script that write an image: one for the code, and one for each cell, in order. -/
inductive WrittenByHand (image : Image) : List (List Char) → Prop where
  | lines {code : List Char} {cells : List (List Char)} (hcode : CodeByHand image.code code)
    (hcells : List.Forall₂ CellByHand image.data cells) : WrittenByHand image (code :: cells)

/-- The operations that write the slots and the cells of an image, without its size. -/
def writes (image : Image) : List Access :=
  slotWrites 0 image.code ++ image.data.map fun (address, value) => .writeData address value

/-- Loading an image writes it and then sets the program size. -/
lemma accesses_eq (image : Image) :
    image.accesses = image.writes ++ [.setProgramSize image.code.length] := by
  rw [accesses, writes, slotWrites]
  simp only [Nat.zero_add]

/-- An image that fits into the memory. -/
structure Fits (image : Image) : Prop where
  code : image.code.length ≤ codeSize
  data : ∀ cell ∈ image.data, 0 ≤ cell.1.toInt ∧ cell.1.toInt < dataSize

variable {image : Image}

/-- The code of an image that fits can be written from slot zero on. -/
lemma Fits.neverRefused_slotWrites (h : image.Fits) :
    ∀ a ∈ slotWrites 0 image.code, a.NeverRefused := by
  intro a ha
  obtain ⟨⟨i, offset⟩, hmem, rfl⟩ := List.mem_map.1 ha
  have hoffset : offset < image.code.length := (List.mem_zipIdx' hmem).1
  have hcode := h.code
  exact Access.neverRefused_writeCode (by omega) i

/-- Nothing that an image that fits asks for is refused. -/
lemma Fits.neverRefused (h : image.Fits) : ∀ a ∈ image.accesses, a.NeverRefused := by
  intro a ha
  rw [accesses_eq, writes, List.mem_append, List.mem_append, List.mem_singleton] at ha
  rcases ha with (ha | ha) | rfl
  · exact h.neverRefused_slotWrites a ha
  · obtain ⟨cell, hcell, rfl⟩ := List.mem_map.1 ha
    exact Access.neverRefused_writeData (h.data cell hcell) cell.2
  · exact Access.neverRefused_setProgramSize image.code.length

/-- Every image can be loaded from a file of a suitable text. -/
lemma exists_loadsImage (image : Image) : ∃ files load, LoadsImage files image load := by
  obtain ⟨text, htext⟩ := Text.exists_hasLines image.feed_notMem_plainLines
  have hlines : Text.HasLines (String.ofList text).toList image.plainLines := by
    rwa [String.toList_ofList]
  have hname : IsFileName ['p'] := ⟨List.cons_ne_nil 'p' [], by decide⟩
  exact ⟨fun _ => .regular (String.ofList text).toUTF8, _,
    .line isGap_space hname rfl hlines image.writtenAs_plainLines⟩

/-- Every image can be written by hand. -/
lemma exists_writtenByHand (image : Image) : ∃ lines, image.WrittenByHand lines := by
  have hword : ∀ w, SpellsWord (plainWord w).toList w := fun w =>
    ⟨.inl (isHex_of_spellsNat (Numeral.spellsNat_lowerHex 1 _)), writtenAs_plainWord w⟩
  have hinstructions : List.Forall₂ SpellsInstruction
      (image.code.map fun i => ((Numeral.lowerHex 2 i.opcode.toNat).toList, (plainWord i.arg).toList))
      image.code := by
    rw [List.forall₂_map_left_iff, List.forall₂_same]
    intro i _
    exact ⟨Numeral.spellsNat_lowerHex 2 _, length_lowerHex_two_le i.opcode.toNat_lt, hword i.arg⟩
  have hcells : List.Forall₂ CellByHand image.data (image.data.map fun cell =>
      (Sentence.writeData (Numeral.lowerHex 1 cell.1.toInt.toNat).toList
        [(plainWord cell.2).toList]).write [' ']) := by
    rw [List.forall₂_map_right_iff, List.forall₂_same]
    intro cell _
    exact .line isGap_space (Numeral.spellsNat_lowerHex 1 _) (hword cell.2)
  exact ⟨_, .lines (.line isGap_space (Numeral.spellsNat_lowerHex 1 0) hinstructions) hcells⟩

end Image

namespace Script

/-! ## Reading the lines -/

/-- A written sentence is read as the command that it says. -/
lemma Command.ofLine_write {gap : List Char} (hgap : IsGap gap) {s : Sentence} (h : s.WellSpelled)
    {c : Command} (hc : s.toCommand = .ok c) : Command.ofLine (s.write gap) = .ok (some c) := by
  rw [Command.ofLine, Sentence.trim_write h, Sentence.read_write hgap h]
  simp only [hc]
  rfl

/-- A list is read as the items that its texts stand for. -/
lemma mapM_of_forall₂ {α β : Type} {read : α → Except NumberError β} {texts : List α} {items : List β}
    (h : List.Forall₂ (fun text b => read text = .ok b) texts items) : texts.mapM read = .ok items := by
  induction h with
  | nil => rfl
  | cons hb _ ih =>
    rw [List.mapM_cons, hb, ih]
    rfl

/-- A spelled instruction is read as what it is. -/
lemma readInstruction_of_spells {i : Instruction} {spelled : List Char × List Char}
    (h : SpellsInstruction spelled i) : readInstruction spelled = .ok i := by
  have hlt := i.opcode.toNat_lt
  have hopcode : readOpcode spelled.1 = .ok i.opcode := by
    rw [readOpcode_of_spellsNat h.opcode (by omega), UInt8.ofNat_toNat]
  rw [readInstruction]
  simp only [hopcode, h.arg.writtenAs.read_eq]
  rfl

/-- The line that writes code by hand is read. -/
lemma ofLine_codeByHand {code : List Instruction} (hcode : code ≠ []) {line : List Char}
    (h : CodeByHand code line) : Command.ofLine line = .ok (some (.writeCode 0 code)) := by
  obtain @⟨gap, zero, spelled, hgap, hzero, hspelled⟩ := h
  have hwell : (Sentence.writeCode zero spelled).WellSpelled := by
    refine ⟨isHex_of_spellsNat hzero, ?_, ?_⟩
    · rintro rfl
      exact hcode (List.forall₂_nil_left_iff.1 hspelled)
    · have hboth := hspelled.imp fun texts i (h : SpellsInstruction texts i) =>
        (⟨⟨isHex_of_spellsNat h.opcode, h.length_opcode, h.arg.isSignedHex⟩, h⟩ :
          IsInstruction texts ∧ SpellsInstruction texts i)
      exact ((List.forall₂_and_left spelled code).1 hboth).1
  have hread : spelled.mapM readInstruction = .ok code :=
    mapM_of_forall₂ (hspelled.imp fun _ _ => readInstruction_of_spells)
  refine Command.ofLine_write hgap hwell ?_
  rw [Sentence.toCommand, readAddress_of_spellsNat hzero (by omega), hread]
  rfl

/-- The line that writes a cell by hand is read. -/
lemma ofLine_cellByHand {cell : Int32 × Int32} {line : List Char} (h : CellByHand cell line) :
    Command.ofLine line = .ok (some (.writeData cell.1.toInt.toNat [cell.2])) := by
  obtain @⟨gap, address, value, hgap, haddress, hvalue⟩ := h
  have hwell : (Sentence.writeData address [value]).WellSpelled := by
    refine ⟨isHex_of_spellsNat haddress, List.cons_ne_nil value [], ?_⟩
    intro text htext
    obtain rfl := List.mem_singleton.1 htext
    exact hvalue.isSignedHex
  have hsmall : cell.1.toInt.toNat ≤ greatestAddress := by
    have hlt := cell.1.toInt_lt
    rw [greatestAddress]
    omega
  have hread : [value].mapM Word.read = .ok [cell.2] :=
    mapM_of_forall₂ (.cons hvalue.writtenAs.read_eq .nil)
  refine Command.ofLine_write hgap hwell ?_
  rw [Sentence.toCommand, readAddress_of_spellsNat haddress hsmall, hread]
  rfl

/-! ## Preparing a machine -/

section Prepares

variable (files : Files) (steps : Nat)

/-- Lines that prepare a machine: each reports that it has done so, and together they leave another
machine. -/
inductive Prepares : Machine → List ReadLine → Machine → Prop where
  | nil (m : Machine) : Prepares m [] m
  | cons {m next last : Machine} {line : ReadLine} {report : List String} {rest : List ReadLine}
    (hline : obey files steps m line = (some (.ok (.setup report)), next))
    (hrest : Prepares next rest last) : Prepares m (line :: rest) last

variable {files steps}

/-- Operations that are never refused are carried out and reported. -/
lemma prepare_eq (m : Machine) {accesses : List Access} (h : ∀ a ∈ accesses, a.NeverRefused)
    (report : String) : prepare m accesses report =
      (.ok (.setup [report]), m.withProcessor (m.toProcessor.performing accesses)) := by
  rw [prepare, Processor.performAll_eq h]

/-- The line that writes code by hand writes the slots. -/
lemma obey_codeByHand {image : Image} (hfits : image.Fits) (hcode : image.code ≠ []) {line : List Char}
    (h : CodeByHand image.code line) (m : Machine) :
    obey files steps m (.ok line) =
      (some (.ok (.setup [instructionsWritten image.code.length])),
        m.withProcessor (m.toProcessor.performing (slotWrites 0 image.code))) := by
  rw [obey, ofLine_codeByHand hcode h]
  simp only [Command.before, Command.execute, prepare_eq m hfits.neverRefused_slotWrites]
  rfl

/-- The line that writes a cell by hand writes it. -/
lemma obey_cellByHand {cell : Int32 × Int32} (hcell : 0 ≤ cell.1.toInt ∧ cell.1.toInt < dataSize)
    {line : List Char} (h : CellByHand cell line) (m : Machine) :
    obey files steps m (.ok line) =
      (some (.ok (.setup [wordsWritten 1])),
        m.withProcessor (m.toProcessor.performing [.writeData cell.1 cell.2])) := by
  have hlt := cell.1.toInt_lt
  have hword : Int32.ofNat (cell.1.toInt.toNat + 0) = cell.1 := by
    rw [← Int32.toInt_inj, Int32.toInt_ofNat_of_lt (by omega), Nat.add_zero,
      Int.toNat_of_nonneg hcell.1]
  have hwrites : cellWrites cell.1.toInt.toNat [cell.2] = [.writeData cell.1 cell.2] :=
    congrArg (fun address => [Access.writeData address cell.2]) hword
  have hnever : ∀ a ∈ [Access.writeData cell.1 cell.2], a.NeverRefused := by
    intro a ha
    obtain rfl := List.mem_singleton.1 ha
    exact Access.neverRefused_writeData hcell cell.2
  have hsmall : ¬ ([cell.2] ≠ [] ∧ Word.limit ≤ cell.1.toInt.toNat) := by
    rw [Word.limit]
    omega
  rw [obey, ofLine_cellByHand h]
  simp only [Command.before, Command.execute, writeWords, if_neg hsmall, hwrites,
    prepare_eq m hnever]
  rfl

/-- The lines that write cells by hand write them, one after the other. -/
lemma prepares_cells {data : List (Int32 × Int32)} {lines : List (List Char)}
    (h : List.Forall₂ CellByHand data lines)
    (hdata : ∀ cell ∈ data, 0 ≤ cell.1.toInt ∧ cell.1.toInt < dataSize) (m : Machine) :
    Prepares files steps m (lines.map .ok)
      (m.withProcessor (m.toProcessor.performing
        (data.map fun (address, value) => .writeData address value))) := by
  induction h generalizing m with
  | nil => exact .nil m
  | cons hcell _ ih =>
    exact .cons (obey_cellByHand (hdata _ List.mem_cons_self) hcell m)
      (ih (fun cell hmem => hdata cell (List.mem_cons_of_mem _ hmem)) _)

/-- The lines that write an image by hand write its slots and its cells. -/
lemma prepares_byHand {image : Image} (hcode : image.code ≠ []) (hfits : image.Fits)
    {lines : List (List Char)} (h : image.WrittenByHand lines) (m : Machine) :
    Prepares files steps m (lines.map .ok)
      (m.withProcessor (m.toProcessor.performing image.writes)) := by
  obtain @⟨code, cells, hline, hcells⟩ := h
  have hwrites : m.toProcessor.performing image.writes =
      (m.toProcessor.performing (slotWrites 0 image.code)).performing
        (image.data.map fun (address, value) => .writeData address value) := by
    rw [Image.writes, Processor.performing, List.foldl_append]
    rfl
  rw [hwrites]
  exact .cons (obey_codeByHand hfits hcode hline m) (prepares_cells hcells hfits.data _)

/-- The line that loads an image writes its slots and its cells, and sets the program size. -/
lemma prepares_load {image : Image} (hfits : image.Fits) {line : List Char}
    (h : LoadsImage files image line) (m : Machine) :
    Prepares files steps m [.ok line]
      ((m.withProcessor (m.toProcessor.performing image.writes)).withSize image.code.length) := by
  obtain @⟨gap, file, text, ls, hgap, hname, hfile, htext, himage⟩ := h
  have hread : Image.ofLines (readLines text.toUTF8) = .ok image := by
    rw [readLines_toUTF8, Image.ofLines, Image.readFrom_congr htext.map_trim_lines]
    exact Image.ofLines_written himage
  have hwell : (Sentence.load file).WellSpelled := hname
  have hline : Command.ofLine ((Sentence.load file).write gap) =
      .ok (some (.load (String.ofList file))) := Command.ofLine_write hgap hwell rfl
  have hload : ∃ report, loadImage m (String.ofList file) (.regular text.toUTF8) =
      (.ok (.setup [report]), m.withProcessor (m.toProcessor.performing image.accesses)) := by
    rw [loadImage]
    simp only [FileView.lines, Image.ofReading, hread]
    exact ⟨_, prepare_eq m hfits.neverRefused _⟩
  obtain ⟨report, hreport⟩ := hload
  have hsize : m.withProcessor (m.toProcessor.performing image.accesses) =
      (m.withProcessor (m.toProcessor.performing image.writes)).withSize image.code.length := by
    rw [Image.accesses_eq, Processor.performing, List.foldl_append]
    rfl
  have hobey : obey files steps m (.ok ((Sentence.load file).write gap)) =
      (some (.ok (.setup [report])),
        (m.withProcessor (m.toProcessor.performing image.writes)).withSize image.code.length) := by
    rw [obey, hline]
    simp only [Command.before, Command.execute, hfile, hreport, hsize]
    rfl
  exact .cons hobey (.nil _)

end Prepares

/-- **Loading a program is writing it by hand.** An image with at least one instruction that fits into
the memory can be loaded from a file, and it can be written by hand. Whatever file it is written in, and
by whatever lines, loading the file and writing by hand both succeed on every machine. They leave
machines that agree in all but the program size, and from which any further lines give the same tokens,
in sessions that go on after failures and in others. -/
theorem loading_is_writing_by_hand {image : Image} (hcode : image.code ≠ []) (hfits : image.Fits) :
    (∃ files load, LoadsImage files image load) ∧ (∃ byHand, image.WrittenByHand byHand) ∧
      ∀ (files : Files) (steps : Nat) (load : List Char) (byHand : List (List Char)) (m : Machine),
        LoadsImage files image load → image.WrittenByHand byHand →
        ∃ loaded written, Prepares files steps m [.ok load] loaded ∧
          Prepares files steps m (byHand.map .ok) written ∧
          loaded = written.withSize image.code.length ∧
          loaded.registers = written.registers ∧ loaded.halted = written.halted ∧
          loaded.memory.code = written.memory.code ∧ loaded.memory.data = written.memory.data ∧
          loaded.memory.changed = written.memory.changed ∧
          ∀ (settings : Settings) (sent : Array Token) (later : List ReadLine),
            settings.runFrom files loaded sent later = settings.runFrom files written sent later := by
  refine ⟨image.exists_loadsImage, image.exists_writtenByHand,
    fun files steps load byHand m hload hbyHand => ?_⟩
  exact ⟨_, _, prepares_load hfits hload m, prepares_byHand hcode hfits hbyHand m, rfl, rfl, rfl, rfl,
    rfl, rfl, fun settings sent later => settings.runFrom_withSize files _ _ sent later⟩

/-- A program of one instruction and a cell that is written twice, spelled differently in the two ways. -/
theorem loading_is_writing_by_hand_repeated_cell :
    ∃ (files : Files) (loaded written : Machine),
      files "p" = .regular "1B -1\n-1\n5 FFFFFFF6\n05 7".toUTF8 ∧
      Prepares files 10 {} [.ok "memory load \"p\"".toList] loaded ∧
      Prepares files 10 {} [.ok "code write #0x00 0x(1b:ffffffff)".toList,
        .ok "memory write #0x005 0x(-a)".toList, .ok "memory write #0x5 0x(07)".toList] written ∧
      loaded = written.withSize 1 ∧
      ∀ settings sent later,
        Settings.runFrom settings files loaded sent later =
          Settings.runFrom settings files written sent later := by
  let text : String := "1B -1\n-1\n5 FFFFFFF6\n05 7"
  let ls : List (List Char) :=
    ["1B -1".toList, "-1".toList, "5 FFFFFFF6".toList, "05 7".toList]
  let image : Image := ⟨[⟨0x1B, -1⟩], [(5, -10), (5, 7)]⟩
  let files : Files := fun _ => .regular text.toUTF8
  have hrow : ∀ (first second : List Char → Prop) (a b : String), first a.toList → second b.toList →
      Image.RowWrittenAs first second (Image.plainRow a b) :=
    fun first second a b => Image.rowWrittenAs_plainRow
  have hinstruction : Image.InstructionWrittenAs ⟨0x1B, -1⟩ "1B -1".toList :=
    hrow _ _ "1B" "-1" (by decide : Numeral.SpellsNat _ _) (.signed (by decide))
  have hfirst : Image.CellWrittenAs (5, -10) "5 FFFFFFF6".toList :=
    hrow _ _ "5" "FFFFFFF6" (.signed (by decide)) (.bits (by decide))
  have hsecond : Image.CellWrittenAs (5, 7) "05 7".toList :=
    hrow _ _ "05" "7" (.signed (by decide)) (.signed (by decide))
  have himage : image.WrittenAs ls :=
    ⟨["1B -1".toList], [], [], ["5 FFFFFFF6".toList, "05 7".toList], rfl, .item hinstruction .nil,
      by decide, by decide, .item hfirst (.item hsecond .nil)⟩
  have htext : Text.HasLines text.toList ls := by
    have hsplit : text.toList = "1B -1".toList ++ (['\n'] ++ ("-1".toList ++ (['\n'] ++
        ("5 FFFFFFF6".toList ++ (['\n'] ++ "05 7".toList))))) := by
      decide
    rw [hsplit]
    exact .cons (by decide) (by decide) (.cons (by decide) (by decide)
      (.cons (by decide) (by decide) (.last (by decide) (by decide))))
  have hload : LoadsImage files image ((Sentence.load "p".toList).write [' ']) :=
    .line isGap_space ⟨by decide, by decide⟩ rfl htext himage
  have hspelled : SpellsInstruction ("1b".toList, "ffffffff".toList) ⟨0x1B, -1⟩ :=
    ⟨by decide, by decide,
      .inl (isHex_of_spellsNat (by decide : Numeral.SpellsNat _ 0xFFFFFFFF)),
      .bits (by decide)⟩
  have hcode : CodeByHand image.code
      ((Sentence.writeCode "00".toList [("1b".toList, "ffffffff".toList)]).write [' ']) :=
    .line isGap_space (by decide) (.cons hspelled .nil)
  have hcell : CellByHand (5, -10)
      ((Sentence.writeData "005".toList ["-a".toList]).write [' ']) :=
    .line isGap_space (by decide)
      ⟨.inr ⟨_, rfl, isHex_of_spellsNat (by decide : Numeral.SpellsNat _ 0xA)⟩,
        .signed (by decide)⟩
  have hagain : CellByHand (5, 7) ((Sentence.writeData "5".toList ["07".toList]).write [' ']) :=
    .line isGap_space (by decide)
      ⟨.inl (isHex_of_spellsNat (by decide : Numeral.SpellsNat _ 7)), .signed (by decide)⟩
  have hbyHand : image.WrittenByHand _ := .lines hcode (.cons hcell (.cons hagain .nil))
  have hne : image.code ≠ [] := List.cons_ne_nil _ _
  have hfits : image.Fits :=
    ⟨by decide, List.forall_mem_cons.2 ⟨by decide, List.forall_mem_singleton.2 (by decide)⟩⟩
  obtain ⟨loaded, written, hloaded, hwritten, hsize, -, -, -, -, -, hlater⟩ :=
    (loading_is_writing_by_hand hne hfits).2.2 files 10 _ _ {} hload hbyHand
  exact ⟨files, loaded, written, rfl, hloaded, hwritten, hsize, hlater⟩

end Script

end AccumulatorMachine

import AccumulatorMachine.Proofs.ReadSentences

/-!
# The lines with a text

The lines that start a test plan, and those that name a file, told without a reader. The text stands
between marks, two pairs of dollar signs or two quotes, and is taken as it is. It may hold blanks, and
it may hold the mark of a comment.

## Main definitions

* `Script.MarkerLine` — the lines that start a test plan.
* `Script.FileLine` — the lines with two words and a file name.

## Main results

* `Script.ofLine_marker_iff`, `Script.ofLine_load_iff`, `Script.ofLine_checkSource_iff` — which lines
  start a plan, which load an image and which check a source.
-/

set_option autoImplicit false

namespace AccumulatorMachine.Script

open Sentence

/-! ## The grammar -/

/-- The lines that start a test plan. -/
inductive MarkerLine (text : List Char) : List Char → Prop
  | intro {before gap tail : List Char} (hbefore : Spaces before) (hgap : Spaces gap)
    (htext : IsDescription text) (htail : IsTail tail) :
    MarkerLine text (before ++ ("marker".toList ++ (gap ++
      ("$$".toList ++ (text ++ ("$$".toList ++ tail))))))

/-- The lines with two words and a file name. -/
inductive FileLine (first second : String) (name : List Char) : List Char → Prop
  | intro {before gap gap' tail : List Char} (hbefore : Spaces before) (hgap : Spaces gap)
    (hgap' : Spaces gap') (hname : IsFileName name) (htail : IsTail tail) :
    FileLine first second name (before ++ (first.toList ++ (gap ++ (second.toList ++ (gap' ++
      ("\"".toList ++ (name ++ ("\"".toList ++ tail))))))))

/-! ## Commands with a text alone -/

/-- A text is the text of a command exactly if it is that of the sentence. -/
lemma toCommand_text_iff {s : Sentence} {text : String} :
    (s.toCommand = .ok (.marker text) ↔ s = .marker text.toList) ∧
      (s.toCommand = .ok (.load text) ↔ s = .load text.toList) ∧
      (s.toCommand = .ok (.checkSource text) ↔ s = .checkSource text.toList) := by
  have hofList : ∀ spelled : List Char, String.ofList spelled = text ↔ spelled = text.toList :=
    fun spelled => ⟨fun h => h ▸ String.toList_ofList.symm, fun h => h ▸ String.ofList_toList⟩
  cases s with
  | marker _ | load _ | checkSource _ => simp [Sentence.toCommand, hofList]
  | flushMemory | writeData _ _ | writeCode _ _ | flushRegisters | setRegister _ _ | run _ _
  | claim _ _ => simp [Sentence.toCommand, bind_eq_ok_iff, map_eq_ok_iff]

/-- **The lines that start a test plan.** -/
theorem ofLine_marker_iff {line : List Char} {text : String} :
    Command.ofLine line = .ok (some (.marker text)) ↔ MarkerLine text.toList (Text.trim line) := by
  simp only [ofLine_eq_some_iff, toCommand_text_iff.1, exists_eq_right]
  generalize Text.trim line = trimmed
  constructor
  · intro hread
    obtain ⟨before, reader, body, rest, hbefore, hmem, rfl, hbody, htail⟩ := read_eq_some_iff.1 hread
    obtain rfl : reader = markerCommand := by simpa [commands, firstWord] using hmem
    obtain ⟨⟨_, _⟩, hdescription, hresult⟩ := Option.map_eq_some_iff.1 hbody
    obtain ⟨htext, rfl⟩ := Prod.mk.inj hresult
    obtain rfl := Sentence.marker.inj htext
    obtain ⟨hskip, hspelled⟩ := description_eq_some hdescription
    obtain ⟨gap, hgap, rfl⟩ := (skip_eq_append_iff (by decide) (by decide)).1 hskip
    exact .intro hbefore hgap hspelled htail
  · rintro ⟨hbefore, hgap, htext, htail⟩
    refine read_eq_some_iff.2
      ⟨_, markerCommand, _, _, hbefore, by simp [commands, firstWord], rfl, ?_, htail⟩
    rw [markerCommand, skip_append hgap (startsToken_append (by decide) (by decide) _),
      description_append htext.not_infix htext.getLast?_ne]
    rfl

/-! ## Files -/

/-- Takes a word and the name of a file behind it. -/
def namedFile (word : String) : Reader (List Char) := fun cs =>
  (token word cs).bind fun cs => fileName (skip cs)

section Files

variable {word : String} (hne : word.toList ≠ []) (hword : StartsToken word.toList)

include hne hword

/-- Exactly a word and the name of a file behind it are taken. -/
lemma namedFile_eq_some_iff {cs name rest : List Char} :
    namedFile word cs = some (name, rest) ↔
      ∃ gap gap', Spaces gap ∧ Spaces gap' ∧ IsFileName name ∧
        cs = gap ++ (word.toList ++ (gap' ++ ("\"".toList ++ (name ++ ("\"".toList ++ rest))))) := by
  constructor
  · intro h
    obtain ⟨body, htoken, hname⟩ := Option.bind_eq_some_iff.1 h
    obtain ⟨hskip', hspelled⟩ := fileName_eq_some hname
    simp only [writeFileName, List.append_assoc] at hskip'
    obtain ⟨gap', hgap', rfl⟩ := (skip_eq_append_iff (by decide) (by decide)).1 hskip'
    obtain ⟨gap, hgap, rfl⟩ := (skip_eq_append_iff hne hword).1 (after_eq_some_iff.1 htoken)
    exact ⟨gap, gap', hgap, hgap', hspelled, rfl⟩
  · rintro ⟨gap, gap', hgap, hgap', hspelled, rfl⟩
    rw [namedFile, token_append hgap hne hword, Option.bind_some,
      skip_append hgap' (startsToken_append (by decide) (by decide) _),
      fileName_append hspelled.ne_nil hspelled.not_mem]

/-- A sentence with a file name is read from the lines with its two words and the name. -/
lemma read_file_iff {line name : List Char} {s : Sentence} {reader : Reader Sentence}
    (hreader : ∀ other, (s.firstWord, other) ∈ commands ↔ other = reader)
    (htaken : ∀ cs rest, reader cs = some (s, rest) ↔ namedFile word cs = some (name, rest)) :
    read line = some (some s) ↔ FileLine s.firstWord word name line := by
  constructor
  · intro hread
    obtain ⟨before, other, body, rest, hbefore, hmem, rfl, hbody, htail⟩ := read_eq_some_iff.1 hread
    obtain rfl := (hreader other).1 hmem
    obtain ⟨gap, gap', hgap, hgap', hname, rfl⟩ :=
      (namedFile_eq_some_iff hne hword).1 ((htaken body rest).1 hbody)
    exact .intro hbefore hgap hgap' hname htail
  · rintro ⟨hbefore, hgap, hgap', hname, htail⟩
    refine read_eq_some_iff.2 ⟨_, reader, _, _, hbefore, (hreader reader).2 rfl, rfl, ?_, htail⟩
    exact (htaken _ _).2 ((namedFile_eq_some_iff hne hword).2 ⟨_, _, hgap, hgap', hname, rfl⟩)

end Files

/-- Behind `memory`, an image is loaded exactly if its name stands behind `load`. -/
lemma memoryCommand_load_iff {cs name rest : List Char} :
    memoryCommand cs = some (.load name, rest) ↔ namedFile "load" cs = some (name, rest) := by
  constructor
  · intro h
    simp only [memoryCommand, Option.or_eq_some_iff, Option.map_eq_some_iff, Option.bind_eq_bind,
      Option.bind_eq_some_iff, Prod.exists, Prod.mk.injEq, Option.some.injEq, Sentence.load.injEq] at h
    rcases h with ⟨_, -, ⟨⟩, -⟩ | ⟨-, ⟨body, htoken, _, _, hname, rfl, rfl⟩ |
      ⟨-, _, -, _, _, -, _, _, -, ⟨⟩, -⟩⟩
    exact Option.bind_eq_some_iff.2 ⟨body, htoken, hname⟩
  · intro h
    obtain ⟨gap, gap', hgap, hgap', hspelled, rfl⟩ :=
      (namedFile_eq_some_iff (by decide) (by decide)).1 h
    obtain ⟨body, htoken, hname⟩ := Option.bind_eq_some_iff.1 h
    rw [memoryCommand, token_append_eq_none hgap (by decide) (by decide) (by decide), htoken]
    simp only [Option.bind_eq_bind, Option.bind_some, hname]
    rfl

/-- **The lines that load an image.** -/
theorem ofLine_load_iff {line : List Char} {file : String} :
    Command.ofLine line = .ok (some (.load file)) ↔
      FileLine "memory" "load" file.toList (Text.trim line) := by
  simp only [ofLine_eq_some_iff, toCommand_text_iff.2.1, exists_eq_right]
  have hreader : ∀ other, ("memory", other) ∈ commands ↔ other = memoryCommand := by simp [commands]
  exact read_file_iff (by decide) (by decide) hreader fun _ _ => memoryCommand_load_iff

/-- **The lines that check a source.** -/
theorem ofLine_checkSource_iff {line : List Char} {file : String} :
    Command.ofLine line = .ok (some (.checkSource file)) ↔
      FileLine "source" "check" file.toList (Text.trim line) := by
  simp only [ofLine_eq_some_iff, toCommand_text_iff.2.2, exists_eq_right]
  have hreader : ∀ other, ("source", other) ∈ commands ↔ other = sourceCommand := by simp [commands]
  refine read_file_iff (by decide) (by decide) hreader fun cs rest => ?_
  simp [sourceCommand, namedFile, Option.bind_eq_some_iff]

end AccumulatorMachine.Script

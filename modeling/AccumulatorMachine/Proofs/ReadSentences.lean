import AccumulatorMachine.Proofs.ConditionLines

/-!
# What is read is well spelled

Whatever the readers of a script line take, they take from the front of the text, and it is spelled as
it would be written: numbers are digits, lists are not empty, a description holds no pair of dollar signs.
So the sentence of a line is one that can be written, and writing it gives a line with the same sentence.

## Main results

* `Script.opcodeDigits_eq_some`, `Script.fileName_eq_some`, `Script.Sentence.instruction_eq_some` — what is
  taken stands at the front.
* `Script.Sentence.forall_mem_repeated` — what holds of every item holds of all that are taken in a row.
* `Script.Sentence.wellSpelled_of_read` — the sentence of a line is well spelled.
-/

set_option autoImplicit false

namespace AccumulatorMachine.Script

/-! ## Tokens -/

/-- What is taken as an opcode is one digit or two at the front. -/
lemma opcodeDigits_eq_some {cs digits rest : List Char}
    (h : opcodeDigits cs = some (digits, rest)) :
    cs = digits ++ rest ∧ IsHex digits ∧ digits.length ≤ 2 := by
  unfold opcodeDigits at h
  split at h
  · rename_i a b cs
    split at h
    · rename_i ha
      split at h
      · rename_i hb
        cases h
        exact ⟨rfl, ⟨List.cons_ne_nil _ _, by simp [ha, hb]⟩, le_rfl⟩
      · cases h
        exact ⟨rfl, ⟨List.cons_ne_nil _ _, by simp [ha]⟩, Nat.le_succ 1⟩
    · cases h
  · rename_i a
    split at h
    · rename_i ha
      cases h
      exact ⟨rfl, ⟨List.cons_ne_nil _ _, by simp [ha]⟩, Nat.le_succ 1⟩
    · cases h
  · cases h

/-- What is read as a file name stands between two quotes, is not empty and holds none. -/
lemma fileName_eq_some {cs name rest : List Char} (h : fileName cs = some (name, rest)) :
    cs = writeFileName name ++ rest ∧ IsFileName name := by
  simp only [fileName, Option.bind_eq_bind, Option.bind_eq_some_iff, Option.ite_none_left_eq_some,
    Option.some.injEq, Prod.mk.injEq] at h
  obtain ⟨cs, hquote, hne, rest, hclose, rfl, rfl⟩ := h
  obtain rfl := after_eq_some_iff.1 hquote
  refine ⟨?_, hne, fun hmem => ?_⟩
  · rw [writeFileName, List.append_assoc, List.append_assoc, ← after_eq_some_iff.1 hclose,
      List.takeWhile_append_dropWhile]
  · simpa using List.mem_takeWhile_imp hmem

namespace Sentence

/-! ## Quantities and terms -/

/-- A quantity is read from digits in base 16, if it is no register. -/
lemma wellSpelled_quantity {cs rest : List Char} {q : QuantityText}
    (h : quantity cs = some (q, rest)) : q.WellSpelled := by
  simp only [quantity, Option.or_eq_some_iff, Option.map_eq_some_iff, Prod.exists, Prod.mk.injEq] at h
  rcases h with ⟨name, _, -, rfl, -⟩ | ⟨-, ⟨digits, _, h, rfl, -⟩ | ⟨-, digits, _, h, rfl, -⟩⟩
  · trivial
  · exact (cellDigits_eq_some_iff.1 h).2.1
  · exact (wordDigits_eq_some_iff.1 h).2.1

/-- So are both quantities of a term. -/
lemma wellSpelled_term {cs rest : List Char} {t : TermText} (h : term cs = some (t, rest)) :
    t.WellSpelled := by
  simp only [term, Option.or_eq_some_iff, Option.map_eq_some_iff, Option.bind_eq_bind,
    Option.bind_eq_some_iff, Prod.exists, Prod.mk.injEq, Option.some.injEq] at h
  rcases h with ⟨_, -, rfl, -⟩ | ⟨-, ⟨_, -, rfl, -⟩ | ⟨-, ⟨_, -, rfl, -⟩ |
      ⟨-, left, _, hleft, c, _, -, right, _, hright, rfl, -⟩⟩⟩
  · trivial
  · trivial
  · trivial
  · exact ⟨wellSpelled_quantity hleft, wellSpelled_quantity hright⟩

section Repeated

variable {α : Type} {item : Reader α} {p : α → Prop}
  (hitem : ∀ {cs a rest}, item cs = some (a, rest) → p a)

include hitem

/-- What holds of each item that is read holds of all of them in a row. -/
lemma forall_mem_repeated (cs : List Char) : ∀ a ∈ (repeated item cs).1, p a := by
  rw [repeated]
  generalize cs.length = count
  induction count generalizing cs with
  | zero => exact fun a ha => absurd ha List.not_mem_nil
  | succ count ih =>
    rw [repeatedUpTo]
    split
    · exact fun a ha => absurd ha List.not_mem_nil
    · rename_i a rest hfound
      exact List.forall_mem_cons.2 ⟨hitem hfound, ih rest⟩

/-- It holds of all items of a list, of which there is at least one. -/
lemma forall_mem_items {cs rest : List Char} {l : List α} (h : items item cs = some (l, rest)) :
    l ≠ [] ∧ ∀ a ∈ l, p a := by
  simp only [items, Option.bind_eq_bind, Option.bind_eq_some_iff, Prod.exists, Option.some.injEq,
    Prod.mk.injEq] at h
  obtain ⟨_, -, first, mid, hfirst, _, -, rfl, -⟩ := h
  refine ⟨List.cons_ne_nil _ _, List.forall_mem_cons.2 ⟨hitem hfirst, forall_mem_repeated ?_ mid⟩⟩
  intro cs a rest hnext
  obtain ⟨_, -, ha⟩ := Option.bind_eq_some_iff.1 hnext
  exact hitem ha

end Repeated

/-- All numbers of a chain of terms are read from digits in base 16. -/
lemma wellSpelled_condition {cs rest : List Char} {c : ConditionText}
    (h : condition cs = some (c, rest)) : c.WellSpelled := by
  simp only [condition, Option.bind_eq_bind, Option.bind_eq_some_iff, Prod.exists, Option.some.injEq,
    Prod.mk.injEq] at h
  obtain ⟨first, mid, hfirst, rfl, -⟩ := h
  refine ⟨wellSpelled_term hfirst, forall_mem_repeated ?_ mid⟩
  intro cs l rest hlink
  simp only [link, Option.bind_eq_bind, Option.bind_eq_some_iff, Prod.exists, Option.some.injEq,
    Prod.mk.injEq] at hlink
  obtain ⟨_, _, -, t, _, ht, rfl, -⟩ := hlink
  exact wellSpelled_term ht

/-- What is taken as an instruction is one at the front. -/
lemma instruction_eq_some {cs rest : List Char} {i : List Char × List Char}
    (h : instruction cs = some (i, rest)) : cs = writeInstruction i ++ rest ∧ IsInstruction i := by
  obtain ⟨⟨opcode, _⟩, hopcode, hbehind⟩ := Option.bind_eq_some_iff.1 h
  obtain ⟨_, hcolon, hbehind⟩ := Option.bind_eq_some_iff.1 hbehind
  obtain ⟨⟨arg, _⟩, harg, hresult⟩ := Option.bind_eq_some_iff.1 hbehind
  obtain ⟨rfl, rfl⟩ := Prod.mk.inj (Option.some.inj hresult)
  obtain ⟨rfl, hhex, hlength⟩ := opcodeDigits_eq_some hopcode
  obtain ⟨rfl, harg, -⟩ := signedDigits_eq_some_iff.1 harg
  refine ⟨?_, hhex, hlength, harg⟩
  rw [after_eq_some_iff.1 hcolon, writeInstruction, List.append_assoc, List.append_assoc]

/-! ## Commands -/

/-- What may be missing has been read if it is there. -/
lemma exists_of_optional {α : Type} {reader : Reader α} {cs : List Char} {a : α}
    (h : a ∈ (optional reader cs).1) : ∃ rest, reader cs = some (a, rest) := by
  rw [optional] at h
  split at h
  · rename_i rest hread
    obtain rfl := Option.some.inj h
    exact ⟨rest, hread⟩
  · cases h

section Commands

variable {cs rest : List Char} {s : Sentence}

/-- A marker is read with a description between its marks. -/
lemma wellSpelled_markerCommand (h : markerCommand cs = some (s, rest)) : s.WellSpelled := by
  simp only [markerCommand, Option.map_eq_some_iff, Prod.exists, Prod.mk.injEq] at h
  obtain ⟨text, _, htext, rfl, -⟩ := h
  exact (description_eq_some htext).2

/-- The commands of the memory are read with a file name, or with an address and words. -/
lemma wellSpelled_memoryCommand (h : memoryCommand cs = some (s, rest)) : s.WellSpelled := by
  simp only [memoryCommand, Option.or_eq_some_iff, Option.map_eq_some_iff, Option.bind_eq_bind,
    Option.bind_eq_some_iff, Prod.exists, Prod.mk.injEq, Option.some.injEq] at h
  rcases h with ⟨_, -, rfl, -⟩ | ⟨-, ⟨_, -, file, _, hfile, rfl, -⟩ |
      ⟨-, _, -, address, _, haddress, words, _, hwords, rfl, -⟩⟩
  · trivial
  · exact (fileName_eq_some hfile).2
  · exact ⟨(cellDigits_eq_some_iff.1 haddress).2.1,
      forall_mem_items (fun h => (signedDigits_eq_some_iff.1 h).2.1) hwords⟩

/-- A command of the code is read with an address and with opcodes of at most two digits. -/
lemma wellSpelled_codeCommand (h : codeCommand cs = some (s, rest)) : s.WellSpelled := by
  simp only [codeCommand, Option.bind_eq_bind, Option.bind_eq_some_iff, Prod.exists, Prod.mk.injEq,
    Option.some.injEq] at h
  obtain ⟨_, -, address, _, haddress, instructions, _, hinstructions, rfl, -⟩ := h
  exact ⟨(cellDigits_eq_some_iff.1 haddress).2.1,
    forall_mem_items (fun h => (instruction_eq_some h).2) hinstructions⟩

/-- A check of a source is read with a file name. -/
lemma wellSpelled_sourceCommand (h : sourceCommand cs = some (s, rest)) : s.WellSpelled := by
  simp only [sourceCommand, Option.bind_eq_bind, Option.bind_eq_some_iff, Prod.exists,
    Prod.mk.injEq, Option.some.injEq] at h
  obtain ⟨_, -, file, _, hfile, rfl, -⟩ := h
  exact (fileName_eq_some hfile).2

/-- The commands of the registers are read with a word, if any. -/
lemma wellSpelled_registersCommand (h : registersCommand cs = some (s, rest)) : s.WellSpelled := by
  simp only [registersCommand, Option.or_eq_some_iff, Option.map_eq_some_iff, Option.bind_eq_bind,
    Option.bind_eq_some_iff, Prod.exists, Prod.mk.injEq, Option.some.injEq] at h
  rcases h with ⟨_, -, rfl, -⟩ | ⟨-, _, -, name, _, -, _, -, value, _, hvalue, rfl, -⟩
  · trivial
  · exact (wordDigits_eq_some_iff.1 hvalue).2.1

/-- A run is read with an address and a condition, if any. -/
lemma wellSpelled_runCommand (h : runCommand cs = some (s, rest)) : s.WellSpelled := by
  simp only [runCommand, Option.some.injEq, Prod.mk.injEq] at h
  obtain ⟨rfl, -⟩ := h
  constructor
  · intro address haddress
    obtain ⟨rest, hcell⟩ := exists_of_optional haddress
    exact (cellDigits_eq_some_iff.1 hcell).2.1
  · intro c hc
    obtain ⟨rest, huntil⟩ := exists_of_optional hc
    obtain ⟨_, -, hcondition⟩ := Option.bind_eq_some_iff.1 huntil
    exact wellSpelled_condition hcondition

/-- An assertion is read with its condition and its description. -/
lemma wellSpelled_assertCommand (h : assertCommand cs = some (s, rest)) : s.WellSpelled := by
  simp only [assertCommand, Option.bind_eq_bind, Option.bind_eq_some_iff, Prod.exists,
    Prod.mk.injEq, Option.some.injEq] at h
  obtain ⟨c, _, hc, text, _, htext, rfl, -⟩ := h
  exact ⟨wellSpelled_condition hc, (description_eq_some htext).2⟩

/-- Whatever command is read, all of its texts are well spelled. -/
lemma wellSpelled_of_mem {word : String} {reader : Reader Sentence} (h : (word, reader) ∈ commands)
    (hread : reader cs = some (s, rest)) : s.WellSpelled := by
  simp only [commands, List.mem_cons, Prod.mk.injEq, List.not_mem_nil, or_false] at h
  rcases h with ⟨-, rfl⟩ | ⟨-, rfl⟩ | ⟨-, rfl⟩ | ⟨-, rfl⟩ | ⟨-, rfl⟩ | ⟨-, rfl⟩ | ⟨-, rfl⟩
  · exact wellSpelled_markerCommand hread
  · exact wellSpelled_memoryCommand hread
  · exact wellSpelled_codeCommand hread
  · exact wellSpelled_sourceCommand hread
  · exact wellSpelled_registersCommand hread
  · exact wellSpelled_runCommand hread
  · exact wellSpelled_assertCommand hread

end Commands

/-- **The sentence of a line is well spelled.** -/
theorem wellSpelled_of_read {line : List Char} {s : Sentence} (h : read line = some (some s)) :
    s.WellSpelled := by
  obtain ⟨_, _, _, _, -, hmem, -, hread, -⟩ := read_eq_some_iff.1 h
  exact wellSpelled_of_mem hmem hread

end Sentence

end AccumulatorMachine.Script

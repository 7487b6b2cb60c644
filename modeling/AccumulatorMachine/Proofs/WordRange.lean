import AccumulatorMachine.Proofs.LineEnds
import AccumulatorMachine.Proofs.NumberErrors
import Mathlib.Data.Int.ModEq

/-!
# The range of words

A word may be spelled by its signed number or by its bit pattern, and so by any integer from `-2 ^ 31` up
to `2 ^ 32`. The two ways agree modulo `2 ^ 32`: the upper half of the range stands for the negative words
once more. The integer may have blanks around it, either sign, and as many zeros in front as one likes.

Whatever is read as a signed number of 32 bits is read as the same word.

## Main definitions

* `Numeral.SpellsBetweenBlanks` — a text spells an integer, perhaps with blanks around it.

## Main results

* `Numeral.spells_trim_iff` — the trimmed text is what stands between the blanks.
* `Word.eq_ofInt_iff` — an integer gives the word that it is congruent to.
* `Word.read_exactly` — the texts that are read as words, and as which.
-/

set_option autoImplicit false

namespace AccumulatorMachine

namespace Numeral

/-- A text spells an integer, perhaps with blanks around it. -/
def SpellsBetweenBlanks (text : List Char) (n : Int) : Prop :=
  ∃ before core behind, Text.IsBlankLine before ∧ Text.IsBlankLine behind ∧
    text = before ++ (core ++ behind) ∧ Spells core n

/-- What stands between the blanks is the trimmed text, for an integer has no blank in it. -/
lemma spells_trim_iff {text : List Char} {n : Int} :
    Spells (Text.trim text) n ↔ SpellsBetweenBlanks text n := by
  constructor
  · intro h
    obtain ⟨behind, hdrop, hbehind⟩ := Text.exists_trim_append text
    refine ⟨text.takeWhile Text.isBlank, Text.trim text, behind,
      fun _ => List.mem_takeWhile_imp, hbehind, ?_, h⟩
    rw [← hdrop, List.takeWhile_append_dropWhile]
  · rintro ⟨before, core, behind, hbefore, hbehind, rfl, h⟩
    rwa [Text.trim_append hbefore hbehind, h.trim_eq]

/-- A text spells one integer at most. -/
lemma SpellsBetweenBlanks.unique {text : List Char} {n m : Int} (h : SpellsBetweenBlanks text n)
    (h' : SpellsBetweenBlanks text m) : n = m :=
  (spells_trim_iff.2 h).unique (spells_trim_iff.2 h')

end Numeral

namespace Word

open Numeral

/-- An integer gives the word that it is congruent to. -/
lemma eq_ofInt_iff {w : Int32} {n : Int} : w = Int32.ofInt n ↔ w.toInt ≡ n [ZMOD 2 ^ 32] := by
  rw [← Int32.toInt_inj, Int32.toInt_ofInt, Int.ModEq]
  have hleast := w.le_toInt
  have hgreatest := w.toInt_lt
  have hsize : Int32.size = 2 ^ 32 := rfl
  rw [hsize, Int.bmod_def]
  omega

/-- A signed number of 32 bits is a word. -/
lemma read_of_read? {text : List Char} {w : Int32} (h : read? text = some w) : read text = .ok w :=
  read_of_spells (read?_eq_some_iff.1 h)

/-- **Words are read exactly.** A text is read as a word if and only if it spells, between blanks, an
integer from `-2 ^ 31` up to `2 ^ 32`, and it is read as the word that is congruent to this integer modulo
`2 ^ 32`. In particular, a text that is read as a signed number of 32 bits is read as the same word.

**Proof sketch.** The text is read as an integer of 64 bits first, which it is exactly if the integer that
it spells is one. The range of words lies within those of 64 bits, so no word is lost there. -/
theorem read_exactly (text : List Char) :
    ((∃ w, read text = .ok w) ↔ ∃ n, SpellsBetweenBlanks text n ∧ -2 ^ 31 ≤ n ∧ n < 2 ^ 32) ∧
    (∀ n w, SpellsBetweenBlanks text n →
      (read text = .ok w ↔ -2 ^ 31 ≤ n ∧ n < 2 ^ 32 ∧ w.toInt ≡ n [ZMOD 2 ^ 32])) ∧
    ∀ w, read? text = some w → read text = .ok w := by
  have hread : ∀ w, read text = .ok w ↔
      ∃ n, SpellsBetweenBlanks text n ∧ -2 ^ 31 ≤ n ∧ n < 2 ^ 32 ∧ w.toInt ≡ n [ZMOD 2 ^ 32] := by
    intro w
    simp only [read_eq_ok_iff, spells_trim_iff, eq_ofInt_iff]
  refine ⟨?_, fun n w hspells => ?_, fun w => read_of_read?⟩
  · constructor
    · rintro ⟨w, hw⟩
      obtain ⟨n, hspells, hleast, hgreatest, -⟩ := (hread w).1 hw
      exact ⟨n, hspells, hleast, hgreatest⟩
    · rintro ⟨n, hspells, hleast, hgreatest⟩
      exact ⟨Int32.ofInt n, (hread _).2 ⟨n, hspells, hleast, hgreatest, eq_ofInt_iff.1 rfl⟩⟩
  · rw [hread]
    constructor
    · rintro ⟨m, hm, hrest⟩
      rwa [hspells.unique hm]
    · exact fun hrest => ⟨n, hspells, hrest⟩

/-- The greatest integer of the range, with blanks and zeros, and the first one below the range. -/
theorem read_exactly_bounds :
    (SpellsBetweenBlanks "\t+00ffffFFFF ".toList 0xffffffff ∧
      read "\t+00ffffFFFF ".toList = .ok (-1)) ∧
    SpellsBetweenBlanks "-80000001".toList (-0x80000001) ∧
      ¬ ∃ w, read "-80000001".toList = .ok w := by
  have hgreatest : SpellsBetweenBlanks "\t+00ffffFFFF ".toList 0xffffffff :=
    spells_trim_iff.1 (by decide +kernel)
  have hbelow : SpellsBetweenBlanks "-80000001".toList (-0x80000001) :=
    spells_trim_iff.1 (by decide +kernel)
  refine ⟨⟨hgreatest, ((read_exactly _).2.1 _ _ hgreatest).2 (by decide)⟩, hbelow, ?_⟩
  rintro ⟨w, hw⟩
  have hleast := (((read_exactly _).2.1 _ w hbelow).1 hw).1
  omega

end Word

end AccumulatorMachine

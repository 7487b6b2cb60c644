import AccumulatorMachine.Word
import Mathlib.Tactic
import Mathlib.Data.Nat.Digits.Defs

/-!
# Spelled numbers

The reader of numerals takes its digits from the left and gives up at the first value that leaves the
range. Here the numbers that a text spells are described without a reader: a sign or none, and digits
that make the number by their places. The reader finds exactly the numbers of its range that are spelled.

## Main definitions

* `Numeral.StandsFor` — a character is a digit of a value.
* `Numeral.SpellsNat`, `Numeral.Spells` — a text spells a number, without and with a sign.
* `Word.IsSpelledBy` — a text spells a signed number of 32 bits.

## Main results

* `Numeral.digit?_eq_some_iff`, `magnitude_eq_ok_iff` — digits, and runs of digits.
* `Numeral.read_eq_ok_iff` — a numeral with its sign, in any range.
* `Word.isSome_read?_iff`, `Word.read?_eq_some_iff` — a signed number of 32 bits.

It is decided by reading whether a text spells a given number.
-/

set_option autoImplicit false

namespace AccumulatorMachine

namespace Numeral

/-! ## Digits -/

/-- A character is the digit of a value in base 16, in either letter case. -/
def StandsFor (c : Char) (d : Nat) : Prop :=
  "0123456789abcdef".toList[d]? = some c ∨ "0123456789ABCDEF".toList[d]? = some c

/-- Digits have values below 16. -/
lemma StandsFor.lt {c : Char} {d : Nat} (h : StandsFor c d) : d < 16 := by
  rcases h with h | h
  · exact (List.getElem?_eq_some_iff.1 h).1
  · exact (List.getElem?_eq_some_iff.1 h).1

/-- A character is read as the value of which it is the digit. -/
lemma digit?_eq_some_iff {c : Char} {d : Nat} : digit? c = some d ↔ StandsFor c d := by
  constructor
  · -- The three ranges of the reader are ranges of character numbers, each short enough to go through.
    intro h
    have hc : c = Char.ofNat c.toNat := (Char.ofNat_toNat c).symm
    simp only [digit?, Char.le_def, UInt32.le_iff_toNat_le] at h
    change (if 48 ≤ c.toNat ∧ c.toNat ≤ 57 then some (c.toNat - 48)
      else if 97 ≤ c.toNat ∧ c.toNat ≤ 102 then some (c.toNat - 97 + 10)
      else if 65 ≤ c.toNat ∧ c.toNat ≤ 70 then some (c.toNat - 65 + 10) else none) = some d at h
    generalize c.toNat = n at h hc
    subst hc
    split at h
    · obtain ⟨hlow, hhigh⟩ := ‹48 ≤ n ∧ n ≤ 57›
      cases h
      interval_cases n <;> exact Or.inl rfl
    · split at h
      · obtain ⟨hlow, hhigh⟩ := ‹97 ≤ n ∧ n ≤ 102›
        cases h
        interval_cases n <;> exact Or.inl rfl
      · split at h
        · obtain ⟨hlow, hhigh⟩ := ‹65 ≤ n ∧ n ≤ 70›
          cases h
          interval_cases n <;> exact Or.inr rfl
        · cases h
  · intro h
    have hd : d < 16 := h.lt
    rcases h with h | h
    · interval_cases d <;> cases h <;> decide
    · interval_cases d <;> cases h <;> decide

/-- A character that is read as no digit is the digit of no value. -/
lemma not_standsFor_of_digit?_eq_none {c : Char} (h : digit? c = none) (d : Nat) :
    ¬ StandsFor c d := by
  rw [← digit?_eq_some_iff, h]
  simp

/-! ## Runs of digits -/

/-- A text of digits, the most significant one first, spells a number. -/
def SpellsNat (text : List Char) (n : Nat) : Prop :=
  ∃ ds, ds ≠ [] ∧ List.Forall₂ StandsFor text ds ∧ n = Nat.ofDigits 16 ds.reverse

/-- Taking digits from the left never lowers a value. -/
lemma le_foldl_digits (value : Nat) (ds : List Nat) :
    value ≤ ds.foldl (fun v d => v * 16 + d) value := by
  induction ds generalizing value with
  | nil => exact le_rfl
  | cons d ds ih =>
    have hstep : value ≤ value * 16 + d := by omega
    exact hstep.trans (ih _)

/-- Taking digits from the left makes the number that they make by their places. -/
lemma foldl_digits (ds : List Nat) :
    ds.foldl (fun v d => v * 16 + d) 0 = Nat.ofDigits 16 ds.reverse := by
  rw [Nat.ofDigits_eq_foldr, List.foldr_reverse]
  congr 1
  funext v d
  simp only [Nat.cast_id]
  omega

/-- A run of digits is read as the number that it makes behind the digits before, provided that this
number is not too large.

**Proof sketch.** Induction on the text. The numbers on the way are never larger than the last one, so
one of them leaves the bound only if the last one does. -/
lemma magnitude_eq_ok_iff {bound : Nat} {excess : NumeralError} {value n : Nat} {text : List Char}
    (hvalue : value ≤ bound) :
    magnitude bound excess value text = .ok n ↔
      (∃ ds, List.Forall₂ StandsFor text ds ∧ n = ds.foldl (fun v d => v * 16 + d) value) ∧
        n ≤ bound := by
  induction text generalizing value with
  | nil =>
    simp only [magnitude, Except.ok.injEq, List.forall₂_nil_left_iff, exists_eq_left, List.foldl_nil]
    constructor
    · rintro rfl
      exact ⟨rfl, hvalue⟩
    · intro h
      obtain ⟨rfl, -⟩ := h
      rfl
  | cons c cs ih =>
    rw [magnitude]
    cases hc : digit? c with
    | none =>
      simp only [reduceCtorEq, false_iff]
      intro h
      obtain ⟨⟨ds, hds, -⟩, -⟩ := h
      obtain ⟨d, ds, hd, -, rfl⟩ := List.forall₂_cons_left_iff.1 hds
      exact not_standsFor_of_digit?_eq_none hc d hd
    | some d =>
      have hunique : ∀ d', StandsFor c d' → d' = d := by
        intro d' hd'
        rw [← digit?_eq_some_iff, hc] at hd'
        exact (Option.some.inj hd').symm
      have hrun : (∃ ds, List.Forall₂ StandsFor (c :: cs) ds ∧
            n = ds.foldl (fun v d => v * 16 + d) value) ↔
          ∃ ds, List.Forall₂ StandsFor cs ds ∧
            n = ds.foldl (fun v d => v * 16 + d) (value * 16 + d) := by
        constructor
        · intro h
          obtain ⟨ds, hds, hn⟩ := h
          obtain ⟨d', ds, hd', hrest, rfl⟩ := List.forall₂_cons_left_iff.1 hds
          obtain rfl := hunique d' hd'
          exact ⟨ds, hrest, hn⟩
        · intro h
          obtain ⟨ds, hds, hn⟩ := h
          exact ⟨d :: ds, .cons (digit?_eq_some_iff.1 hc) hds, hn⟩
      rw [hrun]
      by_cases hbound : value * 16 + d ≤ bound
      · simp only [hbound, if_true]
        exact ih hbound
      · -- The value exceeds the bound here, and further digits only raise it.
        simp only [hbound, if_false, reduceCtorEq, false_iff]
        intro h
        obtain ⟨⟨ds, -, rfl⟩, hn⟩ := h
        exact hbound ((le_foldl_digits _ ds).trans hn)

/-- A text that is not empty is read as the number that it spells, provided that it is not too large. -/
lemma magnitude_zero_eq_ok_iff {bound : Nat} {excess : NumeralError} {n : Nat} {text : List Char}
    (htext : text ≠ []) :
    magnitude bound excess 0 text = .ok n ↔ SpellsNat text n ∧ n ≤ bound := by
  rw [magnitude_eq_ok_iff (Nat.zero_le bound), SpellsNat]
  refine and_congr_left fun _ => exists_congr fun ds => ?_
  rw [foldl_digits]
  constructor
  · intro h
    obtain ⟨hds, hn⟩ := h
    refine ⟨?_, hds, hn⟩
    rintro rfl
    exact htext (List.forall₂_nil_right_iff.1 hds)
  · intro h
    obtain ⟨-, hds, hn⟩ := h
    exact ⟨hds, hn⟩

/-- Whatever is made of the number that is read is made of the number that is spelled. -/
lemma map_magnitude_eq_ok_iff {bound : Nat} {excess : NumeralError} {text : List Char} {n : Int}
    (htext : text ≠ []) (f : Nat → Int) :
    (magnitude bound excess 0 text).map f = .ok n ↔
      ∃ value, SpellsNat text value ∧ value ≤ bound ∧ n = f value := by
  constructor
  · intro h
    cases hm : magnitude bound excess 0 text with
    | error e =>
      rw [hm] at h
      cases h
    | ok value =>
      rw [hm] at h
      obtain ⟨hspells, hbound⟩ := (magnitude_zero_eq_ok_iff htext).1 hm
      exact ⟨value, hspells, hbound, (Except.ok.inj h).symm⟩
  · intro h
    obtain ⟨value, hspells, hbound, rfl⟩ := h
    rw [(magnitude_zero_eq_ok_iff htext).2 ⟨hspells, hbound⟩]
    rfl

/-- The empty text spells no number. -/
lemma SpellsNat.ne_nil {text : List Char} {n : Nat} (h : SpellsNat text n) : text ≠ [] := by
  obtain ⟨ds, hne, hds, -⟩ := h
  rintro rfl
  exact hne (List.forall₂_nil_left_iff.1 hds)

/-- A text spells a number if it is not empty and is read as the number, which may itself be the bound. -/
lemma spellsNat_iff_magnitude {text : List Char} {n : Nat} :
    SpellsNat text n ↔ text ≠ [] ∧ magnitude n .tooLarge 0 text = .ok n := by
  constructor
  · intro h
    exact ⟨h.ne_nil, (magnitude_zero_eq_ok_iff h.ne_nil).2 ⟨h, le_rfl⟩⟩
  · rintro ⟨htext, h⟩
    exact ((magnitude_zero_eq_ok_iff htext).1 h).1

/-- So it is decided by reading whether a text spells a number. -/
instance (text : List Char) (n : Nat) : Decidable (SpellsNat text n) :=
  decidable_of_iff _ spellsNat_iff_magnitude.symm

/-- A number is spelled with a digit in front. -/
lemma SpellsNat.digit?_head {c : Char} {cs : List Char} {n : Nat} (h : SpellsNat (c :: cs) n) :
    digit? c ≠ none := by
  obtain ⟨ds, -, hds, -⟩ := h
  obtain ⟨d, ds, hd, -, rfl⟩ := List.forall₂_cons_left_iff.1 hds
  rw [digit?_eq_some_iff.2 hd]
  simp

/-! ## Signs -/

/-- A text spells an integer: a sign or none, and at least one digit. -/
def Spells (text : List Char) (n : Int) : Prop :=
  ∃ sign digits value, text = sign ++ digits ∧ SpellsNat digits value ∧
    ((sign = [] ∨ sign = ['+']) ∧ n = value ∨ sign = ['-'] ∧ n = -(value : Int))

/-- Digits have no sign to be taken off. -/
lemma SpellsNat.unsign_eq {text : List Char} {n : Nat} (h : SpellsNat text n) :
    unsign text = (false, text) := by
  obtain ⟨c, cs, rfl⟩ := List.exists_cons_of_ne_nil h.ne_nil
  have hdigit := h.digit?_head
  unfold unsign
  split
  · rename_i heq
    obtain rfl := (List.cons.inj heq).1
    exact absurd (by decide) hdigit
  · rename_i heq
    obtain rfl := (List.cons.inj heq).1
    exact absurd (by decide) hdigit
  · rfl

/-- The sign that is taken off is a minus sign, a plus sign or none. -/
lemma exists_sign (text : List Char) :
    ∃ sign, text = sign ++ (unsign text).2 ∧
      ((sign = [] ∨ sign = ['+']) ∧ (unsign text).1 = false ∨
        sign = ['-'] ∧ (unsign text).1 = true) := by
  unfold unsign
  split
  · exact ⟨['-'], rfl, Or.inr ⟨rfl, rfl⟩⟩
  · exact ⟨['+'], rfl, Or.inl ⟨Or.inr rfl, rfl⟩⟩
  · exact ⟨[], rfl, Or.inl ⟨Or.inl rfl, rfl⟩⟩

/-- A text spells the number of the digits behind its sign, or the negative of that number. -/
lemma spells_iff_unsign {text : List Char} {n : Int} :
    Spells text n ↔
      ∃ value, SpellsNat (unsign text).2 value ∧
        n = if (unsign text).1 = true then -(value : Int) else value := by
  constructor
  · intro h
    obtain ⟨sign, digits, value, rfl, hvalue, hsign⟩ := h
    refine ⟨value, ?_⟩
    rcases hsign with ⟨rfl | rfl, hn⟩ | ⟨rfl, hn⟩
    · rw [List.nil_append, hvalue.unsign_eq]
      exact ⟨hvalue, hn⟩
    · exact ⟨hvalue, hn⟩
    · exact ⟨hvalue, hn⟩
  · intro h
    obtain ⟨value, hvalue, hn⟩ := h
    obtain ⟨sign, htext, hsign⟩ := exists_sign text
    refine ⟨sign, (unsign text).2, value, htext, hvalue, ?_⟩
    rcases hsign with ⟨hsign, hpositive⟩ | ⟨hsign, hnegative⟩
    · rw [if_neg (by rw [hpositive]; exact Bool.false_ne_true)] at hn
      exact Or.inl ⟨hsign, hn⟩
    · rw [if_pos hnegative] at hn
      exact Or.inr ⟨hsign, hn⟩

/-- The digits behind the sign of an integer spell its absolute value. -/
lemma spells_iff_natAbs {text : List Char} {n : Int} :
    Spells text n ↔
      SpellsNat (unsign text).2 n.natAbs ∧
        n = if (unsign text).1 = true then -(n.natAbs : Int) else n.natAbs := by
  rw [spells_iff_unsign]
  constructor
  · rintro ⟨value, hvalue, hn⟩
    have habs : n.natAbs = value := by
      split at hn <;> omega
    rw [habs]
    exact ⟨hvalue, hn⟩
  · rintro ⟨hvalue, hn⟩
    exact ⟨n.natAbs, hvalue, hn⟩

/-- So it is decided by reading whether a text spells an integer. -/
instance (text : List Char) (n : Int) : Decidable (Spells text n) :=
  decidable_of_iff _ spells_iff_natAbs.symm

/-- The sign that is taken off is a minus sign exactly when the text starts with one. -/
lemma unsign_fst_iff (text : List Char) : (unsign text).1 = true ↔ text.head? = some '-' := by
  unfold unsign
  split
  · simp
  · simp
  · rename_i hminus _
    constructor
    · intro h
      cases h
    · intro h
      obtain ⟨cs, rfl⟩ := List.head?_eq_some_iff.1 h
      exact absurd rfl (hminus cs)

/-- A text without digits is not read. -/
lemma read_ne_ok {least : Int} {greatest : Nat} {text : List Char} (h : (unsign text).2 = [])
    (n : Int) : read least greatest text ≠ .ok n := by
  unfold read
  split
  · exact nofun
  · simp [h]

/-- The digits behind the sign are read with the bound of their side of the range. -/
lemma read_eq {least : Int} {greatest : Nat} {text : List Char} (h : (unsign text).2 ≠ []) :
    read least greatest text =
      if (unsign text).1 = true then
        if least < 0 then
          (magnitude least.natAbs .tooSmall 0 (unsign text).2).map fun value : Nat => -(value : Int)
        else .error .invalidDigit
      else (magnitude greatest .tooLarge 0 (unsign text).2).map fun value : Nat => (value : Int) := by
  have htext : text ≠ [] := by
    intro hnil
    rw [hnil] at h
    exact h rfl
  rw [read, if_neg htext]
  simp only [h, if_false]

/-- **The reader finds exactly the numbers of its range that are spelled.** A range without negative
numbers has no minus sign either.

**Proof sketch.** Either sign is a case of its own, in which the digits are read with the bound of their
side of the range. The other bound holds because of the sign. -/
theorem read_eq_ok_iff {least : Int} {greatest : Nat} {text : List Char} {n : Int}
    (hleast : least ≤ 0) :
    read least greatest text = .ok n ↔
      Spells text n ∧ least ≤ n ∧ n ≤ greatest ∧ (least = 0 → text.head? ≠ some '-') := by
  rw [spells_iff_unsign, ne_eq, ← unsign_fst_iff]
  by_cases hdigits : (unsign text).2 = []
  · constructor
    · intro h
      exact absurd h (read_ne_ok hdigits n)
    · intro h
      obtain ⟨⟨value, hvalue, -⟩, -⟩ := h
      exact absurd hdigits hvalue.ne_nil
  · rw [read_eq hdigits]
    cases hsign : (unsign text).1 with
    | false =>
      rw [if_neg Bool.false_ne_true, map_magnitude_eq_ok_iff hdigits]
      constructor
      · intro h
        obtain ⟨value, hvalue, hbound, rfl⟩ := h
        exact ⟨⟨value, hvalue, rfl⟩, by omega, by omega, by simp⟩
      · intro h
        obtain ⟨⟨value, hvalue, rfl⟩, -, hbound, -⟩ := h
        exact ⟨value, hvalue, by simpa using hbound, by simp⟩
    | true =>
      rw [if_pos rfl]
      by_cases hnegative : least < 0
      · rw [if_pos hnegative, map_magnitude_eq_ok_iff hdigits]
        constructor
        · intro h
          obtain ⟨value, hvalue, hbound, rfl⟩ := h
          exact ⟨⟨value, hvalue, rfl⟩, by omega, by omega, by omega⟩
        · intro h
          obtain ⟨⟨value, hvalue, rfl⟩, hbound, -⟩ := h
          rw [if_pos rfl] at hbound
          exact ⟨value, hvalue, by omega, rfl⟩
      · rw [if_neg hnegative]
        constructor
        · intro h
          cases h
        · intro h
          obtain ⟨-, -, -, hminus⟩ := h
          exact absurd rfl (hminus (by omega))

end Numeral

namespace Word

/-- A text spells a signed number of 32 bits. -/
def IsSpelledBy (text : List Char) : Prop :=
  ∃ n : Int, Numeral.Spells text n ∧ -2 ^ 31 ≤ n ∧ n < 2 ^ 31

/-- A signed number of 32 bits is found exactly in the texts that spell one. -/
lemma isSome_read?_iff {text : List Char} : (read? text).isSome ↔ IsSpelledBy text := by
  rw [read?, Option.isSome_map, IsSpelledBy]
  constructor
  · intro h
    cases hread : Numeral.read (-0x80000000) 0x7FFFFFFF text with
    | error e =>
      rw [hread] at h
      cases h
    | ok n =>
      obtain ⟨hspells, hleast, hgreatest, -⟩ := (Numeral.read_eq_ok_iff (by omega)).1 hread
      exact ⟨n, hspells, by omega, by omega⟩
  · intro h
    obtain ⟨n, hspells, hleast, hgreatest⟩ := h
    have hread : Numeral.read (-0x80000000) 0x7FFFFFFF text = .ok n :=
      (Numeral.read_eq_ok_iff (by omega)).2 ⟨hspells, by omega, by omega, by omega⟩
    rw [hread]
    rfl

/-- It is the number that the text spells. -/
lemma read?_eq_some_iff {text : List Char} {w : Int32} :
    read? text = some w ↔ Numeral.Spells text w.toInt := by
  constructor
  · intro h
    obtain ⟨n, hn, rfl⟩ := Option.map_eq_some_iff.1 h
    cases hread : Numeral.read (-0x80000000) 0x7FFFFFFF text with
    | error e =>
      rw [hread] at hn
      cases hn
    | ok m =>
      rw [hread] at hn
      obtain rfl := Option.some.inj hn
      obtain ⟨hspells, hleast, hgreatest, -⟩ := (Numeral.read_eq_ok_iff (by omega)).1 hread
      rwa [Int32.toInt_ofInt_of_le (by omega) (by omega)]
  · intro h
    have hleast := w.le_toInt
    have hgreatest := w.toInt_lt
    have hread : Numeral.read (-0x80000000) 0x7FFFFFFF text = .ok w.toInt :=
      (Numeral.read_eq_ok_iff (by omega)).2 ⟨h, by omega, by omega, by omega⟩
    rw [read?, hread]
    exact congrArg some (Int32.ofInt_toInt w)

end Word

end AccumulatorMachine

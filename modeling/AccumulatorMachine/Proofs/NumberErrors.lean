import AccumulatorMachine.Proofs.ConditionLines

/-!
# Numbers out of range

What becomes of a text that does spell a number, but perhaps none of those that are asked for. The reader
of numerals gives up in front of the first digit that leaves the range, and then it can only be the range
that is to blame: further digits take a number further away. Words are read within 64 bits first and then
narrowed down, so that a word that is too wide is told in two ways.

## Main results

* `Numeral.Spells.unique` — a text spells one number at most.
* `Numeral.Spells.read_eq` — what the reader of numerals makes of a number.
* `Word.read_eq_of_spells`, `readAddress_eq_of_spells`, `readOpcode_eq_of_spells`,
  `Script.readStart_eq_of_spells` — what is made of a word, an address, an opcode and a start.
* `Script.IsSignedHex.exists_spells` — digits spell a number.
-/

set_option autoImplicit false

namespace AccumulatorMachine

namespace Numeral

/-! ## Runs of digits -/

/-- A run of digits is read as the number that it makes, or refused for its size.

**Proof sketch.** Induction on the text. Once a value exceeds the bound, the last one does as well. -/
lemma magnitude_eq_ite {bound : Nat} {excess : NumeralError} {value : Nat} {text : List Char}
    {ds : List Nat} (hvalue : value ≤ bound) (h : List.Forall₂ StandsFor text ds) :
    magnitude bound excess value text =
      if ds.foldl (fun v d => v * 16 + d) value ≤ bound then
        .ok (ds.foldl (fun v d => v * 16 + d) value)
      else .error excess := by
  induction h generalizing value with
  | nil => rw [magnitude, List.foldl_nil, if_pos hvalue]
  | @cons c d cs ds hd _ ih =>
    rw [magnitude, digit?_eq_some_iff.2 hd, List.foldl_cons]
    by_cases hbound : value * 16 + d ≤ bound
    · simp only [hbound, if_true]
      exact ih hbound
    · have hmore : ¬ ds.foldl (fun v d => v * 16 + d) (value * 16 + d) ≤ bound :=
        fun hle => hbound ((le_foldl_digits _ ds).trans hle)
      simp only [hbound, hmore, if_false]

/-- Digits are read as the number that they spell, or are too many for the bound. -/
lemma SpellsNat.magnitude_eq {text : List Char} {n : Nat} (h : SpellsNat text n) (bound : Nat)
    (excess : NumeralError) :
    magnitude bound excess 0 text = if n ≤ bound then .ok n else .error excess := by
  obtain ⟨ds, -, hds, rfl⟩ := h
  rw [magnitude_eq_ite (Nat.zero_le bound) hds, foldl_digits]

/-- A number is bounded by the count of its digits. -/
lemma SpellsNat.lt_pow_length {text : List Char} {n : Nat} (h : SpellsNat text n) :
    n < 16 ^ text.length := by
  obtain ⟨ds, -, hds, rfl⟩ := h
  rw [hds.length_eq, ← List.length_reverse]
  refine Nat.ofDigits_lt_base_pow_length (by omega) fun d hd => ?_
  rw [List.mem_reverse] at hd
  induction hds with
  | nil => exact absurd hd List.not_mem_nil
  | cons hc _ ih =>
    rcases List.mem_cons.1 hd with rfl | hd
    · exact hc.lt
    · exact ih hd

/-- A text spells one number at most. -/
lemma SpellsNat.unique {text : List Char} {n m : Nat} (h : SpellsNat text n)
    (h' : SpellsNat text m) : n = m := by
  have hread := h.magnitude_eq (max n m) .tooLarge
  rw [h'.magnitude_eq, if_pos (le_max_left n m), if_pos (le_max_right n m)] at hread
  exact (Except.ok.inj hread).symm

/-- A text spells one integer only. -/
lemma Spells.unique {text : List Char} {n m : Int} (h : Spells text n) (h' : Spells text m) :
    n = m := by
  rw [spells_iff_unsign] at h h'
  obtain ⟨value, hvalue, rfl⟩ := h
  obtain ⟨value', hvalue', rfl⟩ := h'
  rw [hvalue.unique hvalue']

/-- A number is read if it is in the range, and otherwise refused for its size. -/
lemma Spells.read_eq {least : Int} {greatest : Nat} {text : List Char} {n : Int}
    (h : Spells text n) (hleast : least ≤ 0) (hminus : least = 0 → text.head? ≠ some '-') :
    read least greatest text =
      if n < least then .error .tooSmall else if (greatest : Int) < n then .error .tooLarge
      else .ok n := by
  rw [spells_iff_unsign] at h
  obtain ⟨value, hvalue, rfl⟩ := h
  rw [Numeral.read_eq hvalue.ne_nil]
  cases hsign : (unsign text).1 with
  | false =>
    have hsmall : ¬ (value : Int) < least := by omega
    simp only [Bool.false_eq_true, if_false, hvalue.magnitude_eq, hsmall]
    by_cases hbound : value ≤ greatest
    · rw [if_pos hbound, if_neg (by omega)]
      rfl
    · rw [if_neg hbound, if_pos (by omega)]
      rfl
  | true =>
    have hnegative : least < 0 :=
      lt_of_le_of_ne hleast fun hzero => hminus hzero ((unsign_fst_iff text).1 hsign)
    have hlarge : ¬ (greatest : Int) < -(value : Int) := by omega
    simp only [if_true, hnegative, hvalue.magnitude_eq, hlarge, if_false]
    by_cases hbound : value ≤ least.natAbs
    · rw [if_pos hbound, if_neg (by omega)]
      rfl
    · rw [if_neg hbound, if_pos (by omega)]
      rfl

end Numeral

/-! ## Words, addresses and opcodes -/

/-- A word is read within 64 bits first, and then narrowed down to 32. -/
lemma Word.read_eq_of_spells {text : List Char} {n : Int} (h : Numeral.Spells text n) :
    read text =
      if -2 ^ 31 ≤ n ∧ n < 2 ^ 32 then .ok (Int32.ofInt n)
      else .error (if n < -2 ^ 63 then .word text .tooSmall
        else if 2 ^ 63 ≤ n then .word text .tooLarge else .wide text) := by
  rw [read, h.trim_eq, if_neg h.ne_nil, h.read_eq (by omega) (by omega)]
  by_cases hsmall : n < -2 ^ 63
  · rw [if_pos hsmall, if_pos (by omega), if_neg (by omega)]
  · rw [if_neg hsmall, if_neg (by omega)]
    by_cases hlarge : 2 ^ 63 ≤ n
    · rw [if_pos hlarge, if_pos (by omega), if_neg (by omega)]
    · rw [if_neg hlarge, if_neg (by omega)]
      exact if_congr (by omega) rfl rfl

/-- An address has no sign. -/
lemma readAddress_eq_of_spells {text : List Char} {n : Nat} (h : Numeral.SpellsNat text n) :
    readAddress text = if n < 2 ^ 64 then .ok n else .error (.address text .tooLarge) := by
  rw [readAddress, h.spells.trim_eq, if_neg h.ne_nil,
    h.spells.read_eq le_rfl fun _ => h.head?_ne_minus, if_neg (by omega)]
  have hgreatest : greatestAddress = 2 ^ 64 - 1 := rfl
  by_cases hlarge : n < 2 ^ 64
  · rw [if_pos hlarge, if_neg (by omega)]
    rfl
  · rw [if_neg hlarge, if_pos (by omega)]

/-- Digits are read as an opcode, or are too large for one. -/
lemma readOpcode_eq_of_spells {text : List Char} {n : Nat} (h : Numeral.SpellsNat text n) :
    readOpcode text = if n < 2 ^ 8 then .ok (UInt8.ofNat n) else .error (.opcode text .tooLarge) := by
  rw [readOpcode, h.spells.trim_eq, h.spells.read_eq le_rfl fun _ => h.head?_ne_minus,
    if_neg (by omega)]
  by_cases hlarge : n < 2 ^ 8
  · rw [if_pos hlarge, if_neg (by omega)]
    rfl
  · rw [if_neg hlarge, if_pos (by omega)]

namespace Script

/-- A start is read as an address first, and then must be a word. -/
lemma readStart_eq_of_spells {text : List Char} {n : Nat} (h : Numeral.SpellsNat text n) :
    readStart text =
      if n < 2 ^ 31 then .ok (Int32.ofNat n)
      else .error (if n < 2 ^ 64 then .start n else .address text .tooLarge) := by
  rw [readStart, readAddress_eq_of_spells h]
  by_cases haddress : n < 2 ^ 64
  · rw [if_pos haddress, if_pos haddress]
    rfl
  · rw [if_neg haddress, if_neg haddress, if_neg (by omega)]
    rfl

/-- Digits spell a number. -/
lemma IsHex.exists_spellsNat {digits : List Char} (h : IsHex digits) :
    ∃ n, Numeral.SpellsNat digits n := by
  obtain ⟨hne, hdigits⟩ := h
  obtain ⟨ds, hds⟩ : ∃ ds, List.Forall₂ Numeral.StandsFor digits ds := by
    clear hne
    induction digits with
    | nil => exact ⟨[], .nil⟩
    | cons c cs ih =>
      obtain ⟨hc, hcs⟩ := List.forall_mem_cons.1 hdigits
      obtain ⟨d, hd⟩ := Option.isSome_iff_exists.1 hc
      obtain ⟨ds, hds⟩ := ih hcs
      exact ⟨d :: ds, .cons (Numeral.digit?_eq_some_iff.1 hd) hds⟩
  refine ⟨_, ds, ?_, hds, rfl⟩
  rintro rfl
  exact hne (List.forall₂_nil_right_iff.1 hds)

/-- Digits behind an optional minus sign spell a number. -/
lemma IsSignedHex.exists_spells {text : List Char} (h : IsSignedHex text) :
    ∃ n, Numeral.Spells text n := by
  rcases h with h | ⟨digits, rfl, h⟩
  · obtain ⟨n, hn⟩ := h.exists_spellsNat
    exact ⟨n, hn.spells⟩
  · obtain ⟨n, hn⟩ := h.exists_spellsNat
    exact ⟨-n, ['-'], digits, n, rfl, hn, Or.inr ⟨rfl, rfl⟩⟩

end Script

end AccumulatorMachine

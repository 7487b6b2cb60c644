import AccumulatorMachine.Proofs.Spelling
import AccumulatorMachine.Proofs.TextLayout

/-!
# Written numbers

The digits that a number is written with spell this number, with or without zeros in front and in
either letter case. So whatever is written in base 16 is read as it was meant.

## Main results

* `Numeral.spellsNat_lowerHex`, `Numeral.spellsNat_upperHex` — written numbers spell themselves.
* `Word.read_eq_ok_iff` — the texts that are read as a word.
* `readAddress_of_spellsNat`, `readOpcode_of_spellsNat`, `Word.read_of_spells` — spelled numbers are read
  as what they are.
-/

set_option autoImplicit false

namespace AccumulatorMachine

namespace Text

/-- A line without a blank at either end is trimmed already. -/
lemma trim_eq_self {line : List Char} (hhead : ∀ c ∈ line.head?, isBlank c = false)
    (hlast : ∀ c ∈ line.getLast?, isBlank c = false) : trim line = line := by
  have hstart : line.dropWhile isBlank = line := by
    cases line with
    | nil => rfl
    | cons c cs =>
      have hc : isBlank c = false := hhead c rfl
      simp [hc]
  have hend : line.rdropWhile isBlank = line := by
    rw [List.rdropWhile_eq_self_iff]
    intro hne
    rw [Bool.not_eq_true]
    exact hlast _ (List.getLast?_eq_getLast_of_ne_nil hne)
  rw [trim, hstart]
  exact hend

/-- A line without blanks is trimmed already. -/
lemma trim_eq_self_of_forall {line : List Char} (h : ∀ c ∈ line, isBlank c = false) :
    trim line = line :=
  trim_eq_self (fun c hc => h c (List.mem_of_mem_head? hc))
    (fun c hc => h c (List.mem_of_mem_getLast? hc))

end Text

namespace Numeral

/-! ## Digits -/

/-- The digits of a number in a base are below the base. -/
lemma digits_lt {base n d : Nat} (hbase : 2 ≤ base) (h : d ∈ digits base n) : d < base := by
  induction n using Nat.strong_induction_on with
  | _ n ih =>
    rw [digits] at h
    split at h
    · rename_i hsmall
      obtain rfl := List.mem_singleton.1 h
      omega
    · rcases List.mem_append.1 h with h | h
      · exact ih (n / base) (Nat.div_lt_self (by omega) hbase) h
      · obtain rfl := List.mem_singleton.1 h
        exact Nat.mod_lt _ (by omega)

/-- The digits of a number make it by their places. -/
lemma ofDigits_digits {base : Nat} (hbase : 2 ≤ base) (n : Nat) :
    Nat.ofDigits base (digits base n).reverse = n := by
  induction n using Nat.strong_induction_on with
  | _ n ih =>
    rw [digits]
    split
    · simp
    · rw [List.reverse_append, List.reverse_singleton, List.singleton_append, Nat.ofDigits_cons,
        ih (n / base) (Nat.div_lt_self (by omega) hbase)]
      exact Nat.mod_add_div n base

/-- A number has digits. -/
lemma digits_ne_nil (base n : Nat) : digits base n ≠ [] := by
  rw [digits]
  split <;> simp

/-- The letter or figure of a value below 16 is its digit, in lower case. -/
lemma standsFor_lowerDigit {d : Nat} (h : d < 16) : StandsFor (lowerDigit d) d := by
  interval_cases d <;> exact Or.inl (by decide)

/-- The letter or figure of a value below 16 is its digit, in upper case. -/
lemma standsFor_upperDigit {d : Nat} (h : d < 16) : StandsFor (upperDigit d) d := by
  interval_cases d <;> exact Or.inr (by decide)

/-- In a base up to ten, the digits are those in which numbers are commonly shown. -/
lemma map_upperDigit_digits {base : Nat} (hbase : 2 ≤ base) (hten : base ≤ 10) (n : Nat) :
    (digits base n).map upperDigit = Nat.toDigits base n := by
  have hdigit : ∀ d < 10, upperDigit d = d.digitChar := by decide
  induction n using Nat.strong_induction_on with
  | _ n ih =>
    rw [digits, Nat.toDigits_eq_if (by omega)]
    by_cases hsmall : n < base
    · rw [dif_pos (Or.inr hsmall), if_pos hsmall, List.map_singleton, hdigit n (by omega)]
    · have hlast : n % base < 10 := (Nat.mod_lt n (by omega)).trans_le hten
      rw [dif_neg (by omega), if_neg hsmall, List.map_append,
        ih (n / base) (Nat.div_lt_self (by omega) hbase), List.map_singleton, hdigit _ hlast]

/-- Up to base ten, the digits are those that the library gives, with zeros in front. -/
lemma toList_natural {base : Nat} (hbase : 2 ≤ base) (hten : base ≤ 10) (width n : Nat) :
    (natural base width n).toList = (Nat.toDigits base n).leftpad width '0' := by
  rw [natural, String.toList_ofList, map_upperDigit_digits hbase hten]

/-! ## Numbers -/

/-- A number written with the digit of each value spells itself, and zeros in front do not change it. -/
lemma spellsNat_leftpad {digit : Nat → Char} (hdigit : ∀ d < 16, StandsFor (digit d) d)
    (width n : Nat) : SpellsNat (((digits 16 n).map digit).leftpad width '0') n := by
  have hvalues : List.Forall₂ StandsFor ((digits 16 n).map digit) (digits 16 n) := by
    rw [List.forall₂_map_left_iff, List.forall₂_same]
    intro d hd
    exact hdigit d (digits_lt (by omega) hd)
  have hzeros : ∀ k, List.Forall₂ StandsFor (List.replicate k '0') (List.replicate k 0) := by
    intro k
    induction k with
    | zero => exact .nil
    | succ k ih => exact .cons (Or.inl rfl) ih
  refine ⟨List.replicate (width - (digits 16 n).length) 0 ++ digits 16 n, ?_, ?_, ?_⟩
  · simp [digits_ne_nil]
  · rw [List.leftpad, List.length_map]
    exact List.rel_append (hzeros _) hvalues
  · rw [List.reverse_append, Nat.ofDigits_append, List.reverse_replicate,
      Nat.ofDigits_replicate_zero, ofDigits_digits (by omega)]
    simp

/-- A number written in lower case spells itself. -/
lemma spellsNat_lowerHex (width n : Nat) : SpellsNat (lowerHex width n).toList n := by
  rw [lowerHex, String.toList_ofList]
  exact spellsNat_leftpad (fun _ => standsFor_lowerDigit) width n

/-- A number written in upper case spells itself. -/
lemma spellsNat_upperHex (width n : Nat) : SpellsNat (upperHex width n).toList n := by
  rw [upperHex, natural, String.toList_ofList]
  exact spellsNat_leftpad (fun _ => standsFor_upperDigit) width n

/-- A number is spelled in digits only. -/
lemma SpellsNat.isDigit {text : List Char} {n : Nat} (h : SpellsNat text n) :
    ∀ c ∈ text, isDigit c = true := by
  obtain ⟨ds, -, hds, -⟩ := h
  intro c hc
  obtain ⟨i, hi, rfl⟩ := List.getElem_of_mem hc
  have hlength := hds.length_eq
  have hstands := (List.forall₂_iff_get.1 hds).2 i hi (hlength ▸ hi)
  simp only [List.get_eq_getElem] at hstands
  rw [Numeral.isDigit, digit?_eq_some_iff.2 hstands]
  rfl

/-- A digit is no blank. -/
lemma isBlank_of_isDigit {c : Char} (h : isDigit c = true) : Text.isBlank c = false := by
  obtain ⟨d, hd⟩ := Option.isSome_iff_exists.1 h
  have hstands := digit?_eq_some_iff.1 hd
  have hlt := hstands.lt
  rcases hstands with h | h
  · interval_cases d <;> cases h <;> decide
  · interval_cases d <;> cases h <;> decide

/-- A spelled integer has no blank in it. -/
lemma Spells.isBlank {text : List Char} {n : Int} (h : Spells text n) :
    ∀ c ∈ text, Text.isBlank c = false := by
  obtain ⟨sign, digits, value, rfl, hvalue, hsign⟩ := h
  intro c hc
  rcases List.mem_append.1 hc with hc | hc
  · rcases hsign with ⟨rfl | rfl, -⟩ | ⟨rfl, -⟩
    · cases hc
    · obtain rfl := List.mem_singleton.1 hc
      decide
    · obtain rfl := List.mem_singleton.1 hc
      decide
  · exact isBlank_of_isDigit (hvalue.isDigit c hc)

/-- A spelled integer is trimmed. -/
lemma Spells.trim_eq {text : List Char} {n : Int} (h : Spells text n) : Text.trim text = text :=
  Text.trim_eq_self_of_forall h.isBlank

/-- Nothing spells no integer. -/
lemma Spells.ne_nil {text : List Char} {n : Int} (h : Spells text n) : text ≠ [] := by
  obtain ⟨sign, digits, value, rfl, hvalue, -⟩ := h
  simp [hvalue.ne_nil]

/-- Digits do not start with a minus sign. -/
lemma SpellsNat.head?_ne_minus {text : List Char} {n : Nat} (h : SpellsNat text n) :
    text.head? ≠ some '-' := by
  intro hhead
  have hdigit := h.isDigit '-' (List.mem_of_mem_head? hhead)
  revert hdigit
  decide

/-- Digits without a sign spell an integer. -/
lemma SpellsNat.spells {text : List Char} {n : Nat} (h : SpellsNat text n) : Spells text n :=
  ⟨[], text, n, rfl, h, Or.inl ⟨Or.inl rfl, rfl⟩⟩

end Numeral

/-! ## Words, addresses and opcodes -/

/-- A text is read as a word exactly if it spells, between blanks, a signed number of 32 bits or the bit
pattern of one. -/
lemma Word.read_eq_ok_iff {text : List Char} {w : Int32} :
    Word.read text = .ok w ↔
      ∃ n, Numeral.Spells (Text.trim text) n ∧ -2 ^ 31 ≤ n ∧ n < 2 ^ 32 ∧ w = Int32.ofInt n := by
  have hread : Word.read text = .ok w ↔
      Text.trim text ≠ [] ∧ ∃ n,
        Numeral.read (-0x8000000000000000) 0x7FFFFFFFFFFFFFFF (Text.trim text) = .ok n ∧
          -2 ^ 31 ≤ n ∧ n < 2 ^ 32 ∧ w = Int32.ofInt n := by
    rw [Word.read]
    by_cases hblank : Text.trim text = []
    · simp [hblank]
    · rw [if_neg hblank]
      cases Numeral.read (-0x8000000000000000) 0x7FFFFFFFFFFFFFFF (Text.trim text) with
      | error cause => simp
      | ok value =>
        constructor
        · intro h
          replace h : (if -0x80000000 ≤ value ∧ value ≤ 0xFFFFFFFF then
            Except.ok (Int32.ofInt value) else .error (NumberError.wide text)) = .ok w := h
          split at h
          · exact ⟨hblank, value, rfl, by omega, by omega, (Except.ok.inj h).symm⟩
          · cases h
        · rintro ⟨-, n, hn, hleast, hgreatest, rfl⟩
          obtain rfl := Except.ok.inj hn
          exact if_pos ⟨by omega, by omega⟩
  rw [hread]
  constructor
  · rintro ⟨-, n, hn, hleast, hgreatest, rfl⟩
    exact ⟨n, ((Numeral.read_eq_ok_iff (by omega)).1 hn).1, hleast, hgreatest, rfl⟩
  · rintro ⟨n, hspells, hleast, hgreatest, rfl⟩
    refine ⟨hspells.ne_nil, n, ?_, hleast, hgreatest, rfl⟩
    exact (Numeral.read_eq_ok_iff (by omega)).2 ⟨hspells, by omega, by omega, by omega⟩

/-- A number without a sign is read as an address if it has at most 64 bits. -/
lemma readAddress_of_spellsNat {text : List Char} {n : Nat} (h : Numeral.SpellsNat text n)
    (hn : n ≤ greatestAddress) : readAddress text = .ok n := by
  rw [readAddress, h.spells.trim_eq, if_neg h.ne_nil]
  have hread : Numeral.read 0 greatestAddress text = .ok (n : Int) :=
    (Numeral.read_eq_ok_iff le_rfl).2 ⟨h.spells, by omega, by omega, fun _ => h.head?_ne_minus⟩
  rw [hread]
  rfl

/-- A number without a sign is read as an opcode if it has at most 8 bits. -/
lemma readOpcode_of_spellsNat {text : List Char} {n : Nat} (h : Numeral.SpellsNat text n)
    (hn : n ≤ 255) : readOpcode text = .ok (UInt8.ofNat n) := by
  rw [readOpcode, h.spells.trim_eq]
  have hread : Numeral.read 0 255 text = .ok (n : Int) :=
    (Numeral.read_eq_ok_iff le_rfl).2 ⟨h.spells, by omega, by omega, fun _ => h.head?_ne_minus⟩
  rw [hread]
  rfl

namespace Word

/-- A signed number of 32 bits is read as the word that it is. -/
lemma read_of_spells {text : List Char} {w : Int32} (h : Numeral.Spells text w.toInt) :
    read text = .ok w := by
  have hleast := w.le_toInt
  have hgreatest := w.toInt_lt
  rw [read_eq_ok_iff, h.trim_eq]
  exact ⟨w.toInt, h, by omega, by omega, (Int32.ofInt_toInt w).symm⟩

/-- The bit pattern of a word is read as the word. -/
lemma read_of_spellsNat_pattern {text : List Char} {w : Int32}
    (h : Numeral.SpellsNat text (pattern w)) : read text = .ok w := by
  have hlt : pattern w < 2 ^ 32 := w.toUInt32.toNat_lt
  rw [read_eq_ok_iff, h.spells.trim_eq]
  refine ⟨pattern w, h.spells, by omega, by exact_mod_cast hlt, ?_⟩
  rw [← Int32.toInt_inj, Int32.toInt_ofInt]
  exact BitVec.toInt_eq_toNat_bmod w.toBitVec

end Word

end AccumulatorMachine

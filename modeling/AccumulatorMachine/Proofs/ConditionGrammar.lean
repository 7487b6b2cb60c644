import AccumulatorMachine.Proofs.WrittenSentences
import AccumulatorMachine.Script.Command

/-!
# The grammar of conditions

The texts that a line may have for a condition, told without a reader: what stands for a quantity, for
a term, for a chain of terms, and where there may be blanks. Blanks are needed nowhere but behind a
number in front of `AND`, as the first letter of this word is a digit too.

The readers find in a text exactly what the grammar says. What they find is known with its layout, and
it has the value that the grammar gives it.

## Main definitions

* `Quantity.WrittenAs`, `Term.WrittenAs`, `LinksWrittenAs`, `ChainWrittenAs` — the grammar.
* `Script.Reads` — what is read, with its numbers.

## Main results

* `Script.quantity_reads_iff`, `Script.term_reads_iff`, `Script.link_reads_iff` — parts of a chain.
* `Script.condition_read`, `Script.exists_chain` — whole chains.
-/

set_option autoImplicit false

namespace AccumulatorMachine

open Script

/-! ## The grammar -/

/-- The texts that stand for a quantity. A word is given by its bits, or as a negative number. -/
inductive Quantity.WrittenAs : Quantity → List Char → Prop
  /-- A register has a name. -/
  | register (name : RegisterName) : WrittenAs (.register name) name.text.toList
  /-- A cell has an address of at most 64 bits. -/
  | cell {digits : List Char} {address : Nat} (h : Numeral.SpellsNat digits address)
    (hle : address ≤ greatestAddress) : WrittenAs (.cell address) ("#0x".toList ++ digits)
  /-- A word is a number of at most 32 bits. -/
  | word {digits : List Char} {n : Nat} (h : Numeral.SpellsNat digits n) (hlt : n < 2 ^ 32) :
    WrittenAs (.word (Int32.ofInt n)) ("0x".toList ++ digits)
  /-- A negative word is a number behind a minus sign. -/
  | negative {digits : List Char} {n : Nat} (h : Numeral.SpellsNat digits n) (hle : n ≤ 2 ^ 31) :
    WrittenAs (.word (Int32.ofInt (-n))) ("0x-".toList ++ digits)

/-- The text of a quantity ends in a digit. -/
def Quantity.endsInDigit : Quantity → Bool
  | register _ => false
  | cell _ | word _ => true

/-- The texts that stand for a term. -/
inductive Term.WrittenAs : Term → List Char → Prop
  | constant (b : Bool) : WrittenAs (.constant b) (if b then "true" else "false").toList
  | halted : WrittenAs .halted "halted".toList
  | compare {left right : Quantity} {l r gap gap' : List Char} (c : Comparison)
    (hleft : left.WrittenAs l) (hgap : Spaces gap) (hgap' : Spaces gap') (hright : right.WrittenAs r) :
    WrittenAs (.compare left c right) (l ++ (gap ++ (c.scriptSign.toList ++ (gap' ++ r))))

/-- The text of a term ends in a digit. -/
def Term.endsInDigit : Term → Bool
  | compare _ _ right => right.endsInDigit
  | constant _ | halted => false

/-- The texts that stand for further terms behind a term. Blanks set `AND` apart from a digit. -/
inductive LinksWrittenAs : Term → List (Connective × Term) → List Char → Prop
  | nil (last : Term) : LinksWrittenAs last [] []
  | cons {last t : Term} {join : Connective} {links : List (Connective × Term)}
    {gap gap' text more : List Char} (hgap : Spaces gap)
    (hapart : last.endsInDigit = true → join = .and → gap ≠ []) (hgap' : Spaces gap')
    (ht : t.WrittenAs text) (hmore : LinksWrittenAs t links more) :
    LinksWrittenAs last ((join, t) :: links) (gap ++ (join.word.toList ++ (gap' ++ (text ++ more))))

/-- The texts that stand for a chain of terms. -/
def ChainWrittenAs (first : Term) (links : List (Connective × Term)) (text : List Char) : Prop :=
  ∃ head more, text = head ++ more ∧ first.WrittenAs head ∧ LinksWrittenAs first links more

namespace Script

/-! ## Results -/

section Results

variable {ε α β : Type} {x : Except ε α} {b : β}

/-- What is made of a result comes of a result. -/
lemma map_eq_ok_iff {f : α → β} : x.map f = .ok b ↔ ∃ a, x = .ok a ∧ f a = b := by
  cases x <;> simp [Except.map]

/-- A second result comes of a first one. -/
lemma bind_eq_ok_iff {f : α → Except ε β} : x >>= f = .ok b ↔ ∃ a, x = .ok a ∧ f a = .ok b := by
  cases x <;> simp [bind, Except.bind]

end Results

/-! ## Numbers -/

section Numbers

variable {digits : List Char} (h : IsHex digits)

include h

/-- Hexadecimal digits have no sign in front. -/
lemma IsHex.unsign_eq : Numeral.unsign digits = (false, digits) := by
  obtain ⟨c, cs, rfl⟩ := List.exists_cons_of_ne_nil h.ne_nil
  have hc : Numeral.isDigit c = true := h.isDigit c List.mem_cons_self
  unfold Numeral.unsign
  split
  · rename_i heq
    rw [(List.cons.inj heq).1] at hc
    exact absurd hc (by decide)
  · rename_i heq
    rw [(List.cons.inj heq).1] at hc
    exact absurd hc (by decide)
  · rfl

/-- Nor are any of them blank. -/
lemma IsHex.isBlank : ∀ c ∈ digits, Text.isBlank c = false :=
  fun c hc => Numeral.isBlank_of_isDigit (h.isDigit c hc)

/-- Digits are read as the address that they spell. -/
lemma readAddress_eq_ok_iff {n : Nat} :
    readAddress digits = .ok n ↔ Numeral.SpellsNat digits n ∧ n ≤ greatestAddress := by
  refine ⟨fun hread => ?_, fun ⟨hspells, hle⟩ => readAddress_of_spellsNat hspells hle⟩
  have htrim : Text.trim digits = digits := Text.trim_eq_self_of_forall h.isBlank
  rw [readAddress, htrim, if_neg h.ne_nil] at hread
  cases hvalue : Numeral.read 0 greatestAddress digits with
  | error cause =>
    rw [hvalue] at hread
    cases hread
  | ok value =>
    rw [hvalue] at hread
    obtain rfl : value.toNat = n := Except.ok.inj hread
    obtain ⟨hspells, -, hle, -⟩ := (Numeral.read_eq_ok_iff le_rfl).1 hvalue
    rw [Numeral.spells_iff_unsign, h.unsign_eq] at hspells
    obtain ⟨k, hk, rfl⟩ := hspells
    simp only [Bool.false_eq_true, if_false, Int.toNat_natCast] at hle ⊢
    exact ⟨hk, by exact_mod_cast hle⟩

/-- Digits are read as the word with these bits. -/
lemma read_digits_eq_ok_iff {w : Int32} :
    Word.read digits = .ok w ↔
      ∃ n, Numeral.SpellsNat digits n ∧ n < 2 ^ 32 ∧ w = Int32.ofInt n := by
  have htrim : Text.trim digits = digits := Text.trim_eq_self_of_forall h.isBlank
  simp only [Word.read_eq_ok_iff, htrim, Numeral.spells_iff_unsign, h.unsign_eq]
  constructor
  · rintro ⟨_, ⟨n, hn, rfl⟩, -, hlt, rfl⟩
    simp only [Bool.false_eq_true, if_false] at hlt ⊢
    exact ⟨n, hn, by exact_mod_cast hlt, rfl⟩
  · rintro ⟨n, hn, hlt, rfl⟩
    exact ⟨n, ⟨n, hn, rfl⟩, by omega, by exact_mod_cast hlt, rfl⟩

/-- Digits behind a minus sign are read as the negative word. -/
lemma read_minus_eq_ok_iff {w : Int32} :
    Word.read ('-' :: digits) = .ok w ↔
      ∃ n, Numeral.SpellsNat digits n ∧ n ≤ 2 ^ 31 ∧ w = Int32.ofInt (-n) := by
  have htrim : Text.trim ('-' :: digits) = '-' :: digits :=
    Text.trim_eq_self_of_forall (List.forall_mem_cons.2 ⟨by decide, h.isBlank⟩)
  have hunsign : Numeral.unsign ('-' :: digits) = (true, digits) := rfl
  simp only [Word.read_eq_ok_iff, htrim, Numeral.spells_iff_unsign, hunsign, if_true]
  constructor
  · rintro ⟨_, ⟨n, hn, rfl⟩, hle, -, rfl⟩
    exact ⟨n, hn, by omega, rfl⟩
  · rintro ⟨n, hn, hle, rfl⟩
    exact ⟨_, ⟨n, hn, rfl⟩, by omega, by omega, rfl⟩

end Numbers

/-! ## Quantities and terms -/

/-- A reader finds something in a text and leaves the rest, and what it finds has a value. -/
def Reads {α β : Type} (reader : Reader α) (value : α → Except NumberError β) (cs : List Char) (b : β)
    (rest : List Char) : Prop :=
  ∃ a, reader cs = some (a, rest) ∧ value a = .ok b

open Sentence

/-- A register is read exactly from its name. -/
lemma registerName_eq_some_iff {cs rest : List Char} {name : RegisterName} :
    registerName cs = some (name, rest) ↔ cs = name.text.toList ++ rest := by
  refine ⟨fun h => ?_, fun h => h ▸ registerName_append name rest⟩
  simp only [registerName, literal, Option.or_eq_some_iff, Option.map_eq_some_iff, after_eq_some_iff,
    Prod.mk.injEq] at h
  rcases h with ⟨_, rfl, rfl, rfl⟩ | ⟨-, _, rfl, rfl, rfl⟩ <;> rfl

/-- What stands for a quantity is a spelling of it, and is read as this spelling. -/
lemma exists_spelled {q : Quantity} {text : List Char} (h : q.WrittenAs text) :
    ∃ spelled : QuantityText, text = spelled.write ∧ spelled.WellSpelled ∧ spelled.toQuantity = .ok q ∧
      ∀ rest, (q.endsInDigit = true → EndsNumber rest) →
        quantity (text ++ rest) = some (spelled, rest) := by
  cases h with
  | register name =>
    exact ⟨.register name, rfl, trivial, rfl, fun rest _ => by cases name <;> rfl⟩
  | @cell digits address h hle =>
    have hhex : (QuantityText.cell digits).WellSpelled := isHex_of_spellsNat h
    exact ⟨.cell digits, rfl, hhex, map_eq_ok_iff.2 ⟨address, readAddress_of_spellsNat h hle, rfl⟩,
      fun _ hrest => quantity_append hhex (hrest rfl)⟩
  | @word digits n h hlt =>
    have hhex : (QuantityText.word digits).WellSpelled := Or.inl (isHex_of_spellsNat h)
    have hread := (read_digits_eq_ok_iff (isHex_of_spellsNat h)).2 ⟨n, h, hlt, rfl⟩
    exact ⟨.word digits, rfl, hhex, map_eq_ok_iff.2 ⟨_, hread, rfl⟩,
      fun _ hrest => quantity_append hhex (hrest rfl)⟩
  | @negative digits n h hle =>
    have hhex : (QuantityText.word ('-' :: digits)).WellSpelled :=
      Or.inr ⟨digits, rfl, isHex_of_spellsNat h⟩
    have hread := (read_minus_eq_ok_iff (isHex_of_spellsNat h)).2 ⟨n, h, hle, rfl⟩
    exact ⟨.word ('-' :: digits), rfl, hhex, map_eq_ok_iff.2 ⟨_, hread, rfl⟩,
      fun _ hrest => quantity_append hhex (hrest rfl)⟩

/-- Exactly the texts are read that stand for a quantity. -/
lemma quantity_reads_iff {cs rest : List Char} {q : Quantity} :
    Reads quantity QuantityText.toQuantity cs q rest ↔
      ∃ text, cs = text ++ rest ∧ q.WrittenAs text ∧ (q.endsInDigit = true → EndsNumber rest) := by
  constructor
  · rintro ⟨spelled, hread, hvalue⟩
    simp only [quantity, Option.or_eq_some_iff, Option.map_eq_some_iff, Prod.exists,
      Prod.mk.injEq] at hread
    rcases hread with ⟨name, _, hname, rfl, rfl⟩ |
      ⟨-, ⟨digits, _, hcell, rfl, rfl⟩ | ⟨-, digits, _, hword, rfl, rfl⟩⟩
    · obtain rfl := Except.ok.inj hvalue
      exact ⟨_, registerName_eq_some_iff.1 hname, .register name, by rintro ⟨⟩⟩
    · obtain ⟨address, haddress, rfl⟩ := map_eq_ok_iff.1 hvalue
      obtain ⟨rfl, hhex, hrest⟩ := cellDigits_eq_some_iff.1 hcell
      obtain ⟨hspells, hle⟩ := (readAddress_eq_ok_iff hhex).1 haddress
      exact ⟨_, (List.append_assoc _ _ _).symm, .cell hspells hle, fun _ => hrest⟩
    · obtain ⟨w, hw, rfl⟩ := map_eq_ok_iff.1 hvalue
      obtain ⟨rfl, hhex | ⟨digits, rfl, hhex⟩, hrest⟩ := wordDigits_eq_some_iff.1 hword
      · obtain ⟨n, hspells, hlt, rfl⟩ := (read_digits_eq_ok_iff hhex).1 hw
        exact ⟨_, (List.append_assoc _ _ _).symm, .word hspells hlt, fun _ => hrest⟩
      · obtain ⟨n, hspells, hle, rfl⟩ := (read_minus_eq_ok_iff hhex).1 hw
        exact ⟨"0x-".toList ++ digits, (List.append_assoc _ _ _).symm, .negative hspells hle,
          fun _ => hrest⟩
  · rintro ⟨text, rfl, hq, hrest⟩
    obtain ⟨spelled, -, -, hvalue, hread⟩ := exists_spelled hq
    exact ⟨spelled, hread rest hrest, hvalue⟩

/-- What is read as a comparison is its sign in scripts. -/
lemma comparison_eq_some {cs rest : List Char} {c : Comparison} (h : comparison cs = some (c, rest)) :
    cs = c.scriptSign.toList ++ rest := by
  obtain ⟨⟨sign, c'⟩, hmem, hsign⟩ := List.exists_of_findSome?_eq_some h
  simp only [literal, Option.map_eq_some_iff, after_eq_some_iff, Prod.mk.injEq] at hsign
  obtain ⟨_, rfl, rfl, rfl⟩ := hsign
  have hsigns : ∀ s ∈ signs, s.1 = s.2.scriptSign := by decide
  obtain rfl : sign = c'.scriptSign := hsigns _ hmem
  rfl

/-- The text of a quantity is where a token starts. -/
lemma startsToken_written {q : Quantity} {text : List Char} (h : q.WrittenAs text) :
    text ≠ [] ∧ StartsToken text := by
  cases h with
  | register name => cases name <;> exact ⟨by decide, by decide⟩
  | cell | word | negative =>
    exact ⟨List.append_ne_nil_of_left_ne_nil (by decide) _, startsToken_append (by decide) (by decide) _⟩

/-- Exactly the texts are read that stand for a term. -/
lemma term_reads_iff {cs rest : List Char} {t : Term} :
    Reads term TermText.toTerm cs t rest ↔
      ∃ text, cs = text ++ rest ∧ t.WrittenAs text ∧ (t.endsInDigit = true → EndsNumber rest) := by
  constructor
  · rintro ⟨spelled, hread, hvalue⟩
    simp only [term, Option.or_eq_some_iff, Option.map_eq_some_iff, Option.bind_eq_bind,
      Option.bind_eq_some_iff, literal, after_eq_some_iff, Prod.exists, Prod.mk.injEq,
      Option.some.injEq] at hread
    rcases hread with ⟨_, rfl, rfl, rfl⟩ | ⟨-, ⟨_, rfl, rfl, rfl⟩ | ⟨-, ⟨_, rfl, rfl, rfl⟩ |
      ⟨-, left, cs₁, hleft, c, cs₂, hsign, right, cs₃, hright, rfl, rfl⟩⟩⟩
    · obtain rfl := Except.ok.inj hvalue
      exact ⟨_, rfl, .constant true, by rintro ⟨⟩⟩
    · obtain rfl := Except.ok.inj hvalue
      exact ⟨_, rfl, .constant false, by rintro ⟨⟩⟩
    · obtain rfl := Except.ok.inj hvalue
      exact ⟨_, rfl, .halted, by rintro ⟨⟩⟩
    · obtain ⟨l, hl, hvalue⟩ := bind_eq_ok_iff.1 hvalue
      obtain ⟨r, hr, hvalue⟩ := bind_eq_ok_iff.1 hvalue
      obtain rfl := Except.ok.inj hvalue
      obtain ⟨ltext, rfl, hlw, -⟩ := quantity_reads_iff.1 ⟨left, hleft, hl⟩
      obtain ⟨rtext, hskip', hrw, hends⟩ := quantity_reads_iff.1 ⟨right, hright, hr⟩
      obtain ⟨hne, hstart⟩ := startsToken_written hrw
      obtain ⟨gap', hgap', rfl⟩ := (skip_eq_append_iff hne hstart).1 hskip'
      have hskip := comparison_eq_some hsign
      obtain ⟨gap, hgap, rfl⟩ : ∃ gap, Spaces gap ∧ cs₁ = gap ++ (c.scriptSign.toList ++ _) := by
        refine (skip_eq_append_iff ?_ ?_).1 hskip <;> cases c <;> decide
      refine ⟨_, ?_, .compare c hlw hgap hgap' hrw, hends⟩
      simp only [List.append_assoc]
  · rintro ⟨text, rfl, ht, hrest⟩
    cases ht with
    | constant b => exact ⟨.constant b, by cases b <;> rfl, rfl⟩
    | halted => exact ⟨.halted, rfl, rfl⟩
    | @compare left right l r gap gap' c hl hgap hgap' hr =>
      obtain ⟨left', rfl, hspelled, hleft, -⟩ := exists_spelled hl
      obtain ⟨right', rfl, -, hright, hread⟩ := exists_spelled hr
      refine ⟨.compare left' c right', ?_, ?_⟩
      · have h := term_compare c hgap hgap' hspelled (hread rest hrest)
        simpa only [List.append_assoc] using h
      · exact bind_eq_ok_iff.2 ⟨left, hleft, bind_eq_ok_iff.2 ⟨right, hright, rfl⟩⟩

/-- The text of a term is where a token starts. -/
lemma startsToken_writtenTerm {t : Term} {text : List Char} (h : t.WrittenAs text) :
    text ≠ [] ∧ StartsToken text := by
  cases h with
  | constant b => cases b <;> exact ⟨by decide, by decide⟩
  | halted => exact ⟨by decide, by decide⟩
  | compare c hl hgap hgap' hr =>
    obtain ⟨hne, hstart⟩ := startsToken_written hl
    exact ⟨List.append_ne_nil_of_left_ne_nil hne _, startsToken_append hne hstart _⟩

/-! ## Chains -/

/-- A connective is read exactly from its word. -/
lemma connective_eq_some_iff {cs rest : List Char} {join : Connective} :
    connective cs = some (join, rest) ↔ cs = join.word.toList ++ rest := by
  refine ⟨fun h => ?_, fun h => h ▸ connective_append join rest⟩
  simp only [connective, literal, Option.or_eq_some_iff, Option.map_eq_some_iff, after_eq_some_iff,
    Prod.mk.injEq] at h
  rcases h with ⟨_, rfl, rfl, rfl⟩ | ⟨-, _, rfl, rfl, rfl⟩ <;> rfl

/-- Reads the numbers of one more term of a chain. -/
def linkToTerm (l : Connective × TermText) : Except NumberError (Connective × Term) :=
  l.2.toTerm.map (l.1, ·)

/-- The numbers of further terms are read from left to right. -/
lemma linksToTerms_cons (l : Connective × TermText) (spelled : List (Connective × TermText)) :
    linksToTerms (l :: spelled) =
      linkToTerm l >>= fun t => linksToTerms spelled >>= fun ts => .ok (t :: ts) := by
  rw [linksToTerms, List.mapM_cons]
  rfl

/-- Exactly the texts are read that stand for one more term of a chain. -/
lemma link_reads_iff {cs rest : List Char} {join : Connective} {t : Term} :
    Reads link linkToTerm cs (join, t) rest ↔
      ∃ gap gap' text, Spaces gap ∧ Spaces gap' ∧
        cs = gap ++ (join.word.toList ++ (gap' ++ (text ++ rest))) ∧ t.WrittenAs text ∧
        (t.endsInDigit = true → EndsNumber rest) := by
  have hword : join.word.toList ≠ [] ∧ StartsToken join.word.toList := by
    cases join <;> exact ⟨by decide, by decide⟩
  constructor
  · rintro ⟨⟨join', spelled⟩, hread, hvalue⟩
    obtain ⟨t', ht', heq⟩ := map_eq_ok_iff.1 hvalue
    obtain ⟨rfl, rfl⟩ := Prod.mk.inj heq
    simp only [link, Option.bind_eq_bind, Option.bind_eq_some_iff, Prod.exists, Option.some.injEq,
      Prod.mk.injEq] at hread
    obtain ⟨_, cs₁, hjoin, _, _, hterm, ⟨rfl, rfl⟩, rfl⟩ := hread
    obtain ⟨text, hskip', ht, hends⟩ := term_reads_iff.1 ⟨_, hterm, ht'⟩
    obtain ⟨hne, hstart⟩ := startsToken_writtenTerm ht
    obtain ⟨gap', hgap', rfl⟩ := (skip_eq_append_iff hne hstart).1 hskip'
    have hskip := connective_eq_some_iff.1 hjoin
    obtain ⟨gap, hgap, rfl⟩ := (skip_eq_append_iff hword.1 hword.2).1 hskip
    exact ⟨gap, gap', text, hgap, hgap', rfl, ht, hends⟩
  · rintro ⟨gap, gap', text, hgap, hgap', rfl, ht, hends⟩
    obtain ⟨spelled, hread, hvalue⟩ := term_reads_iff.2 ⟨text, rfl, ht, hends⟩
    obtain ⟨hne, hstart⟩ := startsToken_writtenTerm ht
    exact ⟨(join, spelled), link_of_term hgap hgap' (startsToken_append hne hstart rest) hread,
      map_eq_ok_iff.2 ⟨t, hvalue, rfl⟩⟩

/-- What stands behind a term with a digit at its end goes on with no number. -/
lemma endsNumber_links {last : Term} {links : List (Connective × Term)} {text tail : List Char}
    (h : LinksWrittenAs last links text) (htail : EndsNumber tail) (hlast : last.endsInDigit = true) :
    EndsNumber (text ++ tail) := by
  cases h with
  | nil => exact htail
  | @cons _ t join links gap gap' text more hgap hapart hgap' ht hmore =>
    rw [List.append_assoc]
    cases gap with
    | cons c gap => exact endsNumber_gap ⟨List.cons_ne_nil c gap, hgap⟩ _
    | nil =>
      cases join with
      | and => exact absurd rfl (hapart hlast rfl)
      | or => exact endsNumber_cons (by decide) _

/-- The terms of a chain are read one by one, up to a text that is no further term.

**Proof sketch.** Induction on the terms. Each is read in front of what stands for the others, which goes
on with no number where it might. -/
lemma links_read {last : Term} {links : List (Connective × Term)} {text tail : List Char}
    (h : LinksWrittenAs last links text) (htail : EndsNumber tail) (hstop : link tail = none)
    {count : Nat} (hcount : (text ++ tail).length ≤ count) :
    ∃ spelled, repeatedUpTo link count (text ++ tail) = (spelled, tail) ∧
      linksToTerms spelled = .ok links := by
  induction h generalizing count with
  | nil last =>
    refine ⟨[], ?_, rfl⟩
    cases count with
    | zero => rfl
    | succ count => rw [List.nil_append, repeatedUpTo, hstop]
  | @cons last t join links gap gap' text more hgap hapart hgap' ht hmore ih =>
    obtain ⟨l, hread, hvalue⟩ : Reads link linkToTerm
        (gap ++ (join.word.toList ++ (gap' ++ (text ++ (more ++ tail))))) (join, t) (more ++ tail) :=
      link_reads_iff.2 ⟨gap, gap', text, hgap, hgap', rfl, ht, endsNumber_links hmore htail⟩
    have hword : 0 < join.word.toList.length := by cases join <;> decide
    simp only [List.length_append] at hcount
    cases count with
    | zero => omega
    | succ count =>
      have hless : (more ++ tail).length ≤ count := by
        rw [List.length_append]
        omega
      obtain ⟨spelled, hmore', hlinks⟩ := ih hless
      refine ⟨l :: spelled, ?_, ?_⟩
      · simp only [List.append_assoc, repeatedUpTo, hread, hmore']
      · rw [linksToTerms_cons]
        exact bind_eq_ok_iff.2 ⟨_, hvalue, bind_eq_ok_iff.2 ⟨links, hlinks, rfl⟩⟩

/-- Nothing else is read as the further terms of a chain. -/
lemma exists_links {count : Nat} {last : Term} {links : List (Connective × Term)}
    {spelled : List (Connective × TermText)} {cs rest : List Char}
    (hread : repeatedUpTo link count cs = (spelled, rest)) (hvalue : linksToTerms spelled = .ok links)
    (hlast : last.endsInDigit = true → EndsNumber cs) :
    ∃ text, cs = text ++ rest ∧ LinksWrittenAs last links text := by
  -- Where no further term is read, there is no text for one.
  have hnone : ∀ (last : Term) (links : List (Connective × Term)) (cs : List Char),
      linksToTerms [] = .ok links → ∃ text, cs = text ++ cs ∧ LinksWrittenAs last links text := by
    intro last links cs hvalue
    obtain rfl : [] = links := Except.ok.inj hvalue
    exact ⟨[], rfl, .nil last⟩
  induction count generalizing last links spelled cs with
  | zero =>
    obtain ⟨rfl, rfl⟩ := Prod.mk.inj hread
    exact hnone last links cs hvalue
  | succ count ih =>
    rw [repeatedUpTo] at hread
    cases hlink : link cs with
    | none =>
      rw [hlink] at hread
      obtain ⟨rfl, rfl⟩ := Prod.mk.inj hread
      exact hnone last links cs hvalue
    | some found =>
      obtain ⟨l, cs₁⟩ := found
      cases hothers : repeatedUpTo link count cs₁ with
      | mk others rest' =>
        simp only [hlink, hothers, Prod.mk.injEq] at hread
        obtain ⟨rfl, rfl⟩ := hread
        rw [linksToTerms_cons] at hvalue
        obtain ⟨⟨join, t⟩, ht, hvalue⟩ := bind_eq_ok_iff.1 hvalue
        obtain ⟨links, hlinks, hvalue⟩ := bind_eq_ok_iff.1 hvalue
        obtain rfl := Except.ok.inj hvalue
        obtain ⟨gap, gap', text, hgap, hgap', rfl, hwritten, hends⟩ :=
          link_reads_iff.1 ⟨l, hlink, ht⟩
        obtain ⟨more, rfl, hmore⟩ := ih hothers hlinks hends
        refine ⟨_, ?_, .cons hgap ?_ hgap' hwritten hmore⟩
        · simp only [List.append_assoc]
        · rintro hdigit rfl rfl
          have hA := hlast hdigit 'A' rfl
          exact absurd hA (by decide)

/-- The numbers of a condition can be read if those of all its terms can be. -/
lemma toCondition_eq_ok_iff {spelled : ConditionText} {c : Condition} :
    spelled.toCondition = .ok c ↔
      ∃ first links, spelled.first.toTerm = .ok first ∧ linksToTerms spelled.rest = .ok links ∧
        c = Condition.join first links := by
  rw [ConditionText.toCondition]
  simp only [bind_eq_ok_iff, Except.ok.injEq]
  constructor
  · rintro ⟨first, hfirst, links, hlinks, rfl⟩
    exact ⟨first, links, hfirst, hlinks, rfl⟩
  · rintro ⟨first, links, hfirst, hlinks, rfl⟩
    exact ⟨first, hfirst, links, hlinks, rfl⟩

/-- **What stands for a chain of terms is read as the condition that joins them.** -/
lemma condition_read {first : Term} {links : List (Connective × Term)} {text rest : List Char}
    (h : ChainWrittenAs first links text) (hrest : EndsNumber rest) (hstop : link rest = none) :
    Reads condition ConditionText.toCondition (text ++ rest) (Condition.join first links) rest := by
  obtain ⟨head, more, rfl, hfirst, hmore⟩ := h
  obtain ⟨spelled, hread, hvalue⟩ := term_reads_iff.2
    ⟨head, rfl, hfirst, endsNumber_links hmore hrest⟩
  obtain ⟨others, hothers, hlinks⟩ := links_read hmore hrest hstop le_rfl
  refine ⟨⟨spelled, others⟩, ?_, toCondition_eq_ok_iff.2 ⟨first, links, hvalue, hlinks, rfl⟩⟩
  simp only [List.append_assoc, condition, hread, Option.bind_eq_bind, Option.bind_some, repeated,
    hothers]

/-- **Nothing else is read as a condition.** -/
lemma exists_chain {cs rest : List Char} {c : Condition}
    (h : Reads condition ConditionText.toCondition cs c rest) :
    ∃ first links text, c = Condition.join first links ∧ cs = text ++ rest ∧
      ChainWrittenAs first links text := by
  obtain ⟨spelled, hread, hvalue⟩ := h
  obtain ⟨first, links, hfirst, hlinks, rfl⟩ := toCondition_eq_ok_iff.1 hvalue
  simp only [condition, Option.bind_eq_bind, Option.bind_eq_some_iff, Prod.exists,
    Option.some.injEq, Prod.mk.injEq] at hread
  obtain ⟨term', cs₁, hterm, rfl, rfl⟩ := hread
  obtain ⟨head, rfl, hhead, hends⟩ := term_reads_iff.1 ⟨term', hterm, hfirst⟩
  have hothers : repeatedUpTo link cs₁.length cs₁ = ((repeated link cs₁).1, (repeated link cs₁).2) := rfl
  obtain ⟨more, hmore, hwritten⟩ := exists_links hothers hlinks hends
  refine ⟨first, links, head ++ more, rfl, ?_, head, more, rfl, hhead, hwritten⟩
  rw [List.append_assoc, ← hmore]

end Script

end AccumulatorMachine

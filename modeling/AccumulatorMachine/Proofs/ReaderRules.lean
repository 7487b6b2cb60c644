import AccumulatorMachine.Proofs.WrittenNumbers
import AccumulatorMachine.Script.Reader

/-!
# Rules of the readers

What each reader of a script line takes from a text that starts with the right thing. A reader never
looks back, so all that matters about the text behind is that it does not go on with what was read: no
digit behind a number, nothing that looks like an item behind the last one.

## Main definitions

* `Script.IsGap`, `Script.Spaces` — blanks and tabs between two tokens, with at least one or perhaps none.
* `Script.IsTail` — blanks and tabs behind the last token, and perhaps a comment.
* `Script.StartsToken` — a text in front of which nothing is skipped.
* `Script.EndsNumber` — a text that goes on with no number.
* `Script.IsHex`, `Script.IsSignedHex` — digits, and digits behind an optional minus sign.

## Main results

* `Script.skip_append`, `Script.token_append`, `Script.token_append_eq_none` — what stands behind a gap.
* `Script.hexDigits_append`, `signedDigits_append`, `cellDigits_append`, `wordDigits_append`,
  `opcodeDigits_append` — numbers.
* `Script.description_append`, `Script.fileName_append` — delimited texts.
* `Script.skip_eq_append_iff`, `skip_eq_nil_iff`, `hexDigits_eq_some_iff`, `signedDigits_eq_some_iff`,
  `cellDigits_eq_some_iff`, `wordDigits_eq_some_iff`, `untilDollars_eq_some` — nothing else is taken.
* `Script.repeatedUpTo_flatMap` — items in a row.
-/

set_option autoImplicit false

namespace AccumulatorMachine.Script

/-! ## Words and gaps -/

/-- Gaps are made of blanks and tabs. -/
lemma isGap_iff {c : Char} : isGap c = true ↔ c = ' ' ∨ c = '\t' := by simp [isGap]

/-- Blanks and tabs between two tokens. -/
structure IsGap (gap : List Char) : Prop where
  /-- There is a blank or a tab. -/
  ne_nil : gap ≠ []
  /-- There is nothing else. -/
  isGap : ∀ c ∈ gap, isGap c = true

/-- Nothing is skipped in front of the text. -/
def StartsToken (cs : List Char) : Prop := ∀ c ∈ cs.head?, isGap c = false ∧ c ≠ '/'

/-- The first character tells whether anything is skipped in front of a text. -/
instance : DecidablePred StartsToken := fun cs =>
  decidable_of_iff (cs.head?.all fun c => !isGap c && c != '/') (by cases cs <;> simp [StartsToken])

/-- Nothing is skipped in front of a character that is neither a gap nor a slash. -/
lemma startsToken_cons {c : Char} (hgap : isGap c = false) (hmark : c ≠ '/') (cs : List Char) :
    StartsToken (c :: cs) := by
  rintro d ⟨⟩
  exact ⟨hgap, hmark⟩

/-- A text starts as its first part does. -/
lemma startsToken_append {cs : List Char} (hne : cs ≠ []) (h : StartsToken cs) (rest : List Char) :
    StartsToken (cs ++ rest) := by
  intro c hc
  rw [List.head?_append_of_ne_nil cs hne] at hc
  exact h c hc

/-- The text does not go on with a number. -/
def EndsNumber (cs : List Char) : Prop := ∀ c ∈ cs.head?, Numeral.isDigit c = false

/-- The end of a text ends a number. -/
lemma endsNumber_nil : EndsNumber [] := nofun

/-- A character that is no digit ends a number. -/
lemma endsNumber_cons {c : Char} (hc : Numeral.isDigit c = false) (cs : List Char) :
    EndsNumber (c :: cs) := by
  rintro d ⟨⟩
  exact hc

/-- A gap ends a number. -/
lemma endsNumber_gap {gap : List Char} (hgap : IsGap gap) (cs : List Char) :
    EndsNumber (gap ++ cs) := by
  intro c hc
  rw [List.head?_append_of_ne_nil gap hgap.ne_nil] at hc
  rcases isGap_iff.1 (hgap.isGap c (List.mem_of_mem_head? hc)) with rfl | rfl <;> decide

/-- What stands in front of a token is skipped, and nothing of the token. -/
lemma skip_append {gap cs : List Char} (hgap : ∀ c ∈ gap, isGap c = true) (hcs : StartsToken cs) :
    skip (gap ++ cs) = cs := by
  have hdrop : (gap ++ cs).dropWhile isGap = cs := by
    rw [List.dropWhile_append_of_pos hgap]
    cases cs with
    | nil => rfl
    | cons c cs =>
      have hc : isGap c = false := (hcs c rfl).1
      simp [hc]
  rw [skip, hdrop, if_neg]
  intro hcomment
  rw [List.isPrefixOf_iff_prefix] at hcomment
  obtain ⟨rest, rfl⟩ := hcomment
  exact (hcs '/' rfl).2 rfl

/-- Nothing is skipped in front of a token. -/
lemma skip_eq_self {cs : List Char} (hcs : StartsToken cs) : skip cs = cs :=
  skip_append (fun _ hc => absurd hc List.not_mem_nil) hcs

/-- Blanks and tabs, perhaps none. -/
def Spaces (gap : List Char) : Prop := ∀ c ∈ gap, isGap c = true

/-- A token is found exactly behind blanks and tabs. -/
lemma skip_eq_append_iff {cs text rest : List Char} (hne : text ≠ []) (hstart : StartsToken text) :
    skip cs = text ++ rest ↔ ∃ gap, Spaces gap ∧ cs = gap ++ (text ++ rest) := by
  constructor
  · intro h
    refine ⟨cs.takeWhile isGap, fun _ => List.mem_takeWhile_imp, ?_⟩
    rw [skip] at h
    split at h
    · exact absurd (List.append_eq_nil_iff.1 h.symm).1 hne
    · rw [← h, List.takeWhile_append_dropWhile]
  · rintro ⟨gap, hgap, rfl⟩
    exact skip_append hgap (startsToken_append hne hstart rest)

/-- What may stand behind the last token of a line: blanks and tabs, and perhaps a comment. -/
def IsTail (cs : List Char) : Prop :=
  ∃ gap comment, Spaces gap ∧ cs = gap ++ comment ∧ (comment = [] ∨ commentMark <+: comment)

/-- All is skipped of exactly what may stand behind the last token. -/
lemma skip_eq_nil_iff {cs : List Char} : skip cs = [] ↔ IsTail cs := by
  constructor
  · intro h
    refine ⟨cs.takeWhile isGap, cs.dropWhile isGap, fun _ => List.mem_takeWhile_imp,
      List.takeWhile_append_dropWhile.symm, ?_⟩
    rw [skip] at h
    split at h
    · rename_i hcomment
      exact Or.inr (List.isPrefixOf_iff_prefix.1 hcomment)
    · exact Or.inl h
  · rintro ⟨gap, comment, hgap, rfl, rfl | ⟨rest, rfl⟩⟩
    · exact skip_append hgap nofun
    · have hdrop : (gap ++ (commentMark ++ rest)).dropWhile isGap = commentMark ++ rest := by
        rw [List.dropWhile_append_of_pos hgap]
        rfl
      rw [skip, hdrop]
      exact if_pos (List.isPrefixOf_iff_prefix.2 (List.prefix_append _ _))

/-- Blanks and tabs in front do not make a text go on with a number. -/
lemma endsNumber_spaces {gap cs : List Char} (hgap : Spaces gap) (hcs : EndsNumber cs) :
    EndsNumber (gap ++ cs) := by
  cases gap with
  | nil => exact hcs
  | cons c gap => exact endsNumber_gap ⟨List.cons_ne_nil c gap, hgap⟩ cs

/-- What stands behind the last token goes on with no number. -/
lemma IsTail.endsNumber {cs : List Char} (h : IsTail cs) : EndsNumber cs := by
  obtain ⟨gap, comment, hgap, rfl, rfl | ⟨rest, rfl⟩⟩ := h
  · exact endsNumber_spaces hgap endsNumber_nil
  · exact endsNumber_spaces hgap (endsNumber_cons (by decide) _)

/-- A word at the front is taken. -/
lemma literal_append (word : String) (rest : List Char) :
    literal word (word.toList ++ rest) = some rest := after_eq_some_iff.2 rfl

/-- A word is not taken from another one, unless one of them starts the other. -/
lemma literal_append_eq_none {word other : String} (h : ¬ word.toList <+: other.toList)
    (h' : ¬ other.toList <+: word.toList) (rest : List Char) :
    literal word (other.toList ++ rest) = none := by
  rw [Option.eq_none_iff_forall_ne_some]
  intro cs hcs
  have hprefix : word.toList <+: other.toList ++ rest := ⟨cs, (after_eq_some_iff.1 hcs).symm⟩
  rcases List.prefix_or_prefix_of_prefix hprefix (List.prefix_append _ _) with h₁ | h₂
  · exact h h₁
  · exact h' h₂

section Token

variable {gap : List Char} {word : String} (hgap : ∀ c ∈ gap, isGap c = true)

include hgap

/-- A word behind a gap is taken. -/
lemma token_append (hne : word.toList ≠ []) (hword : StartsToken word.toList) (rest : List Char) :
    token word (gap ++ (word.toList ++ rest)) = some rest := by
  rw [token, skip_append hgap (startsToken_append hne hword rest), literal_append]

/-- A word is not taken where another one stands behind a gap, unless one of them starts the other. -/
lemma token_append_eq_none {other : String} (h : ¬ word.toList <+: other.toList)
    (h' : ¬ other.toList <+: word.toList) (hother : StartsToken other.toList) (rest : List Char) :
    token word (gap ++ (other.toList ++ rest)) = none := by
  have hne : other.toList ≠ [] := fun hnil => h' (hnil ▸ List.nil_prefix)
  rw [token, skip_append hgap (startsToken_append hne hother rest), literal_append_eq_none h h']

end Token

/-! ## Numbers -/

/-- Digits, at least one. -/
structure IsHex (digits : List Char) : Prop where
  /-- There is a digit. -/
  ne_nil : digits ≠ []
  /-- There is nothing else. -/
  isDigit : ∀ c ∈ digits, Numeral.isDigit c = true

/-- What spells a number has digits. -/
lemma isHex_of_spellsNat {text : List Char} {n : Nat} (h : Numeral.SpellsNat text n) :
    IsHex text := ⟨h.ne_nil, h.isDigit⟩

/-- Digits, perhaps behind a minus sign. -/
def IsSignedHex (text : List Char) : Prop :=
  IsHex text ∨ ∃ digits, text = '-' :: digits ∧ IsHex digits

/-- Signed digits are not empty. -/
lemma IsSignedHex.ne_nil {text : List Char} (h : IsSignedHex text) : text ≠ [] := by
  rcases h with h | ⟨digits, rfl, -⟩
  · exact h.ne_nil
  · exact List.cons_ne_nil '-' digits

/-- A number is taken for no gap and no comment. -/
lemma startsToken_digits {digits : List Char} (h : IsHex digits) : StartsToken digits := by
  intro c hc
  have hdigit := h.isDigit c (List.mem_of_mem_head? hc)
  constructor
  · rw [Bool.eq_false_iff]
    intro hgap
    rcases isGap_iff.1 hgap with rfl | rfl <;> exact absurd hdigit (by decide)
  · rintro rfl
    exact absurd hdigit (by decide)

/-- Nothing is skipped in front of them. -/
lemma startsToken_signedDigits {text : List Char} (h : IsSignedHex text) : StartsToken text := by
  rcases h with h | ⟨digits, rfl, -⟩
  · exact startsToken_digits h
  · exact startsToken_cons (by decide) (by decide) digits

/-- A run of digits ends where the number ends. -/
lemma span_digits {digits rest : List Char} (h : ∀ c ∈ digits, Numeral.isDigit c = true)
    (hrest : EndsNumber rest) :
    (digits ++ rest).takeWhile Numeral.isDigit = digits ∧
      (digits ++ rest).dropWhile Numeral.isDigit = rest := by
  rw [List.takeWhile_append_of_pos h, List.dropWhile_append_of_pos h]
  cases rest with
  | nil => simp
  | cons c cs =>
    have hc : Numeral.isDigit c = false := hrest c rfl
    simp [hc]

/-- All digits of a number are taken. -/
lemma hexDigits_append {digits rest : List Char} (h : IsHex digits) (hrest : EndsNumber rest) :
    hexDigits (digits ++ rest) = some (digits, rest) := by
  obtain ⟨htake, hdrop⟩ := span_digits h.isDigit hrest
  rw [hexDigits]
  simp only [htake, hdrop, h.ne_nil, if_false]

/-- Exactly all digits at the front are taken. -/
lemma hexDigits_eq_some_iff {cs digits rest : List Char} :
    hexDigits cs = some (digits, rest) ↔ cs = digits ++ rest ∧ IsHex digits ∧ EndsNumber rest := by
  refine ⟨fun h => ?_, fun ⟨hcs, hdigits, hrest⟩ => hcs ▸ hexDigits_append hdigits hrest⟩
  simp only [hexDigits] at h
  split at h
  · cases h
  · rename_i hne
    simp only [Option.some.injEq, Prod.mk.injEq] at h
    obtain ⟨rfl, rfl⟩ := h
    refine ⟨List.takeWhile_append_dropWhile.symm, ⟨hne, fun _ => List.mem_takeWhile_imp⟩, ?_⟩
    intro c hc
    have hnot := List.head?_dropWhile_not Numeral.isDigit cs
    rw [Option.mem_def.1 hc] at hnot
    exact hnot

/-- A number is taken with its minus sign. -/
lemma signedDigits_append {text rest : List Char} (h : IsSignedHex text) (hrest : EndsNumber rest) :
    signedDigits (text ++ rest) = some (text, rest) := by
  rcases h with h | ⟨digits, rfl, h⟩
  · obtain ⟨c, cs, rfl⟩ := List.exists_cons_of_ne_nil h.ne_nil
    have hc : c ≠ '-' := by
      rintro rfl
      have hdigit := h.isDigit '-' List.mem_cons_self
      revert hdigit
      decide
    rw [List.cons_append, signedDigits, ← List.cons_append, hexDigits_append h hrest]
    rintro ds hds
    exact hc (List.cons.inj hds).1
  · rw [List.cons_append, signedDigits, hexDigits_append h hrest]
    rfl

/-- Exactly all digits at the front are taken with their sign. -/
lemma signedDigits_eq_some_iff {cs text rest : List Char} :
    signedDigits cs = some (text, rest) ↔ cs = text ++ rest ∧ IsSignedHex text ∧ EndsNumber rest := by
  refine ⟨fun h => ?_, fun ⟨hcs, htext, hrest⟩ => hcs ▸ signedDigits_append htext hrest⟩
  rw [signedDigits.eq_def] at h
  split at h
  · obtain ⟨⟨digits, _⟩, hdigits, hresult⟩ := Option.map_eq_some_iff.1 h
    obtain ⟨rfl, rfl⟩ := Prod.mk.inj hresult
    obtain ⟨rfl, hhex, hrest⟩ := hexDigits_eq_some_iff.1 hdigits
    exact ⟨rfl, Or.inr ⟨digits, rfl, hhex⟩, hrest⟩
  · obtain ⟨hcs, hhex, hrest⟩ := hexDigits_eq_some_iff.1 h
    exact ⟨hcs, Or.inl hhex, hrest⟩

/-- An address is taken behind its mark. -/
lemma cellDigits_append {digits rest : List Char} (h : IsHex digits) (hrest : EndsNumber rest) :
    cellDigits ("#0x".toList ++ (digits ++ rest)) = some (digits, rest) := by
  rw [cellDigits, literal_append]
  exact hexDigits_append h hrest

/-- A value is taken behind its mark. -/
lemma wordDigits_append {text rest : List Char} (h : IsSignedHex text) (hrest : EndsNumber rest) :
    wordDigits ("0x".toList ++ (text ++ rest)) = some (text, rest) := by
  rw [wordDigits, literal_append]
  exact signedDigits_append h hrest

/-- Exactly an address at the front is taken. -/
lemma cellDigits_eq_some_iff {cs digits rest : List Char} :
    cellDigits cs = some (digits, rest) ↔
      cs = "#0x".toList ++ (digits ++ rest) ∧ IsHex digits ∧ EndsNumber rest := by
  simp only [cellDigits, Option.bind_eq_some_iff, literal, after_eq_some_iff, hexDigits_eq_some_iff]
  constructor
  · rintro ⟨_, rfl, rfl, hdigits⟩
    exact ⟨rfl, hdigits⟩
  · rintro ⟨rfl, hdigits⟩
    exact ⟨_, rfl, rfl, hdigits⟩

/-- Exactly a value at the front is taken. -/
lemma wordDigits_eq_some_iff {cs text rest : List Char} :
    wordDigits cs = some (text, rest) ↔
      cs = "0x".toList ++ (text ++ rest) ∧ IsSignedHex text ∧ EndsNumber rest := by
  simp only [wordDigits, Option.bind_eq_some_iff, literal, after_eq_some_iff, signedDigits_eq_some_iff]
  constructor
  · rintro ⟨_, rfl, rfl, htext⟩
    exact ⟨rfl, htext⟩
  · rintro ⟨rfl, htext⟩
    exact ⟨_, rfl, rfl, htext⟩

/-- An opcode of one digit or two is taken. -/
lemma opcodeDigits_append {digits rest : List Char} (h : IsHex digits) (hlength : digits.length ≤ 2)
    (hrest : EndsNumber rest) : opcodeDigits (digits ++ rest) = some (digits, rest) := by
  obtain ⟨a, ds, rfl⟩ := List.exists_cons_of_ne_nil h.ne_nil
  have ha : Numeral.isDigit a = true := h.isDigit a List.mem_cons_self
  cases ds with
  | nil =>
    cases rest with
    | nil => simp [opcodeDigits, ha]
    | cons c cs =>
      have hc : Numeral.isDigit c = false := hrest c rfl
      simp [opcodeDigits, ha, hc]
  | cons b ds =>
    have hb : Numeral.isDigit b = true := h.isDigit b (List.mem_cons_of_mem _ List.mem_cons_self)
    have hds : ds = [] := by
      rw [List.length_cons, List.length_cons] at hlength
      exact List.eq_nil_of_length_eq_zero (by omega)
    subst hds
    simp [opcodeDigits, ha, hb]

/-! ## Delimited texts -/

/-- The text up to a pair of dollar signs is taken, provided that it has no such pair itself and does not
make one with the pair that ends it. -/
lemma untilDollars_append {text : List Char} (hpair : ¬ ['$', '$'] <:+: text)
    (hlast : text.getLast? ≠ some '$') (rest : List Char) :
    untilDollars (text ++ ("$$".toList ++ rest)) = some (text, rest) := by
  induction text with
  | nil => rfl
  | cons c cs ih =>
    rw [List.infix_cons_iff, not_or] at hpair
    have hnot : ¬ (c = '$' ∧ (cs ++ ("$$".toList ++ rest)).head? = some '$') := by
      rintro ⟨rfl, hhead⟩
      cases cs with
      | nil => exact hlast rfl
      | cons d ds =>
        obtain rfl : d = '$' := Option.some.inj hhead
        exact hpair.1 ⟨ds, rfl⟩
    have hlast' : cs.getLast? ≠ some '$' := by
      cases cs with
      | nil => exact nofun
      | cons d ds => rwa [List.getLast?_cons_cons] at hlast
    rw [List.cons_append, untilDollars, if_neg hnot, ih hpair.2 hlast']
    rfl

/-- A text that is taken holds no pair of dollar signs, nor does it make one with the pair that ends it. -/
lemma untilDollars_eq_some {cs text rest : List Char} (h : untilDollars cs = some (text, rest)) :
    cs = text ++ ("$$".toList ++ rest) ∧ ¬ ['$', '$'] <:+: text ∧ text.getLast? ≠ some '$' := by
  induction cs generalizing text with
  | nil => cases h
  | cons c cs ih =>
    rw [untilDollars] at h
    split at h
    · rename_i hpair
      obtain ⟨rfl, rfl⟩ := Prod.mk.inj (Option.some.inj h)
      obtain ⟨rfl, hhead⟩ := hpair
      obtain ⟨tail, rfl⟩ : ∃ tail, cs = '$' :: tail := by
        cases cs with
        | nil => cases hhead
        | cons d tail => exact ⟨tail, by rw [Option.some.inj hhead]⟩
      exact ⟨rfl, by simp, nofun⟩
    · rename_i hpair
      obtain ⟨⟨more, _⟩, hmore, hresult⟩ := Option.map_eq_some_iff.1 h
      obtain ⟨rfl, rfl⟩ := Prod.mk.inj hresult
      obtain ⟨rfl, hinfix, hlast⟩ := ih hmore
      refine ⟨rfl, ?_, ?_⟩
      · rw [List.infix_cons_iff, not_or]
        refine ⟨fun hprefix => hpair ?_, hinfix⟩
        obtain ⟨later, hlater⟩ := hprefix
        cases more with
        | nil => cases hlater
        | cons d more =>
          cases hlater
          exact ⟨rfl, rfl⟩
      · cases more with
        | nil =>
          rintro hc
          obtain rfl : c = '$' := Option.some.inj hc
          exact hpair ⟨rfl, rfl⟩
        | cons d more => rwa [List.getLast?_cons_cons]

/-- A description is taken. -/
lemma description_append {text : List Char} (hpair : ¬ ['$', '$'] <:+: text)
    (hlast : text.getLast? ≠ some '$') (rest : List Char) :
    description ("$$".toList ++ (text ++ ("$$".toList ++ rest))) = some (text, rest) := by
  rw [description, literal_append]
  exact untilDollars_append hpair hlast rest

/-- A file name is taken. -/
lemma fileName_append {name : List Char} (hne : name ≠ []) (hquote : '"' ∉ name) (rest : List Char) :
    fileName ("\"".toList ++ (name ++ ("\"".toList ++ rest))) = some (name, rest) := by
  have hname : ∀ c ∈ name, (decide (c ≠ '"')) = true := by
    intro c hc
    rw [decide_eq_true_eq]
    rintro rfl
    exact hquote hc
  have hspan : (name ++ ("\"".toList ++ rest)).takeWhile (· ≠ '"') = name ∧
      (name ++ ("\"".toList ++ rest)).dropWhile (· ≠ '"') = "\"".toList ++ rest := by
    rw [List.takeWhile_append_of_pos hname, List.dropWhile_append_of_pos hname]
    exact ⟨List.append_nil name, rfl⟩
  rw [fileName, literal_append, Option.bind_eq_bind, Option.bind_some]
  simp only [hspan, hne, if_false]
  rw [literal_append]
  rfl

/-! ## Items in a row -/

/-- What may stand behind an item also stands behind the one in front of some items, if it starts each
of them. -/
lemma next_flatMap {α : Type} {write : α → List Char} {next : List Char → Prop} {tail : List Char}
    {items : List α} (hnext : ∀ a ∈ items, ∀ rest, next (write a ++ rest)) (htail : next tail) :
    next (items.flatMap write ++ tail) := by
  cases items with
  | nil => exact htail
  | cons a items =>
    rw [List.flatMap_cons, List.append_assoc]
    exact hnext a List.mem_cons_self _

/-- Items in a row are taken one by one, up to a text that is no item.

**Proof sketch.** Induction on the items. What stands behind an item is the next item or the text behind
the last one, and neither goes on with the item. -/
lemma repeatedUpTo_flatMap {α : Type} {item : Reader α} {write : α → List Char}
    {next : List Char → Prop} {tail : List Char} {count : Nat} {items : List α}
    (hitem : ∀ a ∈ items, ∀ rest, next rest → item (write a ++ rest) = some (a, rest))
    (hnext : ∀ a ∈ items, ∀ rest, next (write a ++ rest)) (htail : next tail)
    (hstop : item tail = none) (hcount : items.length ≤ count) :
    repeatedUpTo item count (items.flatMap write ++ tail) = (items, tail) := by
  induction items generalizing count with
  | nil =>
    cases count with
    | zero => rfl
    | succ count =>
      rw [List.flatMap_nil, List.nil_append, repeatedUpTo, hstop]
  | cons a items ih =>
    cases count with
    | zero => exact absurd hcount (Nat.not_succ_le_zero _)
    | succ count =>
      have hnext' : ∀ b ∈ items, ∀ rest, next (write b ++ rest) :=
        fun b hb => hnext b (List.mem_cons_of_mem _ hb)
      have hrest : next (items.flatMap write ++ tail) := next_flatMap hnext' htail
      have htake := ih (fun b hb => hitem b (List.mem_cons_of_mem _ hb)) hnext'
        (Nat.le_of_succ_le_succ hcount)
      rw [List.flatMap_cons, List.append_assoc, repeatedUpTo, hitem a List.mem_cons_self _ hrest]
      simp only [htake]

/-- Items that are not empty are no more than the characters of the text that they make. -/
lemma length_le_length_flatMap {α : Type} {write : α → List Char} {items : List α}
    (h : ∀ a ∈ items, write a ≠ []) (tail : List Char) :
    items.length ≤ (items.flatMap write ++ tail).length := by
  induction items with
  | nil => exact Nat.zero_le _
  | cons a items ih =>
    have hrest := ih fun b hb => h b (List.mem_cons_of_mem _ hb)
    have ha : 0 < (write a).length := List.length_pos_of_ne_nil (h a List.mem_cons_self)
    simp only [List.flatMap_cons, List.length_append, List.length_cons] at hrest ⊢
    omega

/-- As many items are taken as there are. -/
lemma repeated_flatMap {α : Type} {item : Reader α} {write : α → List Char}
    {next : List Char → Prop} {tail : List Char} {items : List α}
    (hitem : ∀ a ∈ items, ∀ rest, next rest → item (write a ++ rest) = some (a, rest))
    (hnext : ∀ a ∈ items, ∀ rest, next (write a ++ rest)) (hwrite : ∀ a ∈ items, write a ≠ [])
    (htail : next tail) (hstop : item tail = none) :
    repeated item (items.flatMap write ++ tail) = (items, tail) :=
  repeatedUpTo_flatMap hitem hnext htail hstop (length_le_length_flatMap hwrite tail)

end AccumulatorMachine.Script

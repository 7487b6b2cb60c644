import AccumulatorMachine.Proofs.LinePlaces
import AccumulatorMachine.Proofs.WrittenImages

/-!
# The format of images

An image is read from bytes, line by line, and the reader stops at the first line that is out of order.
Which lines are in order can be said without the reader. Every line is in UTF-8. A line that is not blank
has two fields, up to the separator an opcode and a word, and behind it two words. Only the first line
that is trimmed to the separator is one.

What stands behind the first line that is out of order is not even read, so the error depends on the lines
up to this one only. It names the line by its number, with one exception: a line that is not UTF-8 is not
named.

## Main definitions

* `Image.IsOpcode`, `Image.IsWord`, `Image.IsRow` — what a line with two fields says.
* `Image.InOrder` — a line is in order behind others.
* `Image.AllInOrder`, `Image.IsImage` — all lines are in order, behind others or by themselves.
* `Image.Draft.read` — what one line makes of what has been read so far.
* `Image.decodeLine` — a line of bytes as it is read.
* `Image.Disorder` — the first line of bytes that is out of order.
* `Image.lineMark` — how an error starts that names its line.

## Main results

* `Image.exists_readFrom_iff` — lines are read exactly if all of them are in order.
* `Image.exists_disorder` — otherwise there is a first one that is not.
* `Image.exists_ofLines_error` — this line alone decides the error.
* `Image.bytes_read_iff_image` — the bytes that are read, and what decides the error of all others.
* `Image.error_names_line_iff` — the errors that name the line.
-/

set_option autoImplicit false

namespace AccumulatorMachine.Image

open AccumulatorMachine.Text (trim isBlank)

/-! ## Numbers and rows -/

/-- A text spells an opcode: a plus sign or none, and digits, in at most 8 bits. -/
def IsOpcode (text : List Char) : Prop :=
  ∃ sign digits n, text = sign ++ digits ∧ (sign = [] ∨ sign = ['+']) ∧ Numeral.SpellsNat digits n ∧
    n ≤ 255

/-- A text spells a word: a sign or none, and digits, as a signed number of 32 bits or as its bit
pattern. -/
def IsWord (text : List Char) : Prop :=
  ∃ n, Numeral.Spells text n ∧ -2 ^ 31 ≤ n ∧ n < 2 ^ 32

/-- A line has two fields, each of its kind. -/
def IsRow (first second : List Char → Prop) (line : List Char) : Prop :=
  ∃ a b, Text.fields line = [a, b] ∧ first a ∧ second b

/-- A text without blanks is read as an opcode if it spells one. -/
lemma exists_readOpcode_iff {text : List Char} (hsolid : ∀ c ∈ text, isBlank c = false) :
    (∃ opcode, readOpcode text = .ok opcode) ↔ IsOpcode text := by
  rw [readOpcode, Text.trim_eq_self_of_forall hsolid]
  constructor
  · rintro ⟨opcode, h⟩
    split at h
    · cases h
    · rename_i n hn
      obtain ⟨⟨sign, digits, value, rfl, hdigits, hsign⟩, -, hle, hminus⟩ :=
        (Numeral.read_eq_ok_iff le_rfl).1 hn
      rcases hsign with ⟨hsign, rfl⟩ | ⟨rfl, -⟩
      · exact ⟨sign, digits, value, rfl, hsign, hdigits, by omega⟩
      · exact absurd rfl (hminus rfl)
  · rintro ⟨sign, digits, n, rfl, hsign, hdigits, hn⟩
    have hminus : (sign ++ digits).head? ≠ some '-' := by
      rcases hsign with rfl | rfl
      · exact hdigits.head?_ne_minus
      · simp
    have hread : Numeral.read 0 255 (sign ++ digits) = .ok (n : Int) :=
      (Numeral.read_eq_ok_iff le_rfl).2
        ⟨⟨sign, digits, n, rfl, hdigits, .inl ⟨hsign, rfl⟩⟩, by omega, by omega, fun _ => hminus⟩
    rw [hread]
    exact ⟨_, rfl⟩

/-- A text without blanks is read as a word if it spells one. -/
lemma exists_readWord_iff {text : List Char} (hsolid : ∀ c ∈ text, isBlank c = false) :
    (∃ w, Word.read text = .ok w) ↔ IsWord text := by
  simp only [Word.read_eq_ok_iff, Text.trim_eq_self_of_forall hsolid]
  constructor
  · rintro ⟨w, n, hspells, hleast, hgreatest, -⟩
    exact ⟨n, hspells, hleast, hgreatest⟩
  · rintro ⟨n, hspells, hleast, hgreatest⟩
    exact ⟨_, n, hspells, hleast, hgreatest, rfl⟩

section Success

variable {ε ε' β γ : Type} {x : Except ε β}

/-- Errors told in other words leave the results as they are. -/
lemma mapError_eq_ok_iff {f : ε → ε'} {b : β} : x.mapError f = .ok b ↔ x = .ok b := by
  cases x <;> simp [Except.mapError]

/-- A result that is made of another comes of one. -/
lemma exists_of_map_eq_ok {f : β → γ} {c : γ} (h : x.map f = .ok c) : ∃ b, f b = c := by
  cases x with
  | error e => cases h
  | ok b => exact ⟨b, Except.ok.inj h⟩

/-- There is something to be made of a result if there is a result. -/
lemma exists_map_eq_ok_iff {f : β → γ} : (∃ c, x.map f = .ok c) ↔ ∃ b, x = .ok b := by
  cases x <;> simp [Except.map]

/-- There is a second result if there is a first one from which it can be got. -/
lemma exists_bind_eq_ok_iff {f : β → Except ε γ} :
    (∃ c, x.bind f = .ok c) ↔ ∃ b, x = .ok b ∧ ∃ c, f b = .ok c := by
  cases x <;> simp [Except.bind]

end Success

/-- Two fields are read, one after the other, exactly if each is a number of its kind. -/
lemma exists_row_iff {β γ : Type} {readFirst : List Char → Except NumberError β}
    {first : List Char → Prop}
    (hfirst : ∀ {text}, (∀ c ∈ text, isBlank c = false) →
      ((∃ x, readFirst text = .ok x) ↔ first text))
    (make : β → Int32 → γ) (line : List Char) :
    (∃ r, ((twoFields (trim line)).bind fun (a, b) =>
        ((readFirst a).bind fun x => (Word.read b).map (make x)).mapError .number) = .ok r) ↔
      IsRow first IsWord line := by
  have hnumbers : ∀ {a b}, Text.fields line = [a, b] →
      ((∃ r, ((readFirst a).bind fun x => (Word.read b).map (make x)).mapError
        ImageLineError.number = .ok r) ↔ first a ∧ IsWord b) := by
    intro a b hfields
    have ha : ∀ c ∈ a, isBlank c = false := Text.isBlank_of_mem_fields (by rw [hfields]; simp)
    have hb : ∀ c ∈ b, isBlank c = false := Text.isBlank_of_mem_fields (by rw [hfields]; simp)
    simp only [mapError_eq_ok_iff]
    rw [exists_bind_eq_ok_iff, ← hfirst ha, ← exists_readWord_iff hb]
    simp only [exists_map_eq_ok_iff, exists_and_right]
  rw [exists_bind_eq_ok_iff]
  constructor
  · rintro ⟨⟨a, b⟩, hfields, hboth⟩
    rw [twoFields_eq_ok_iff, Text.fields_trim] at hfields
    exact ⟨a, b, hfields, (hnumbers hfields).1 hboth⟩
  · rintro ⟨a, b, hfields, hboth⟩
    refine ⟨(a, b), ?_, (hnumbers hfields).2 hboth⟩
    rw [twoFields_eq_ok_iff, Text.fields_trim, hfields]

/-- A line is read as an instruction if it has an opcode and a word. -/
lemma exists_codeLine_iff (line : List Char) :
    (∃ i, codeLine (trim line) = .ok i) ↔ IsRow IsOpcode IsWord line :=
  exists_row_iff exists_readOpcode_iff Instruction.mk line

/-- A line is read as a cell if it has two words. -/
lemma exists_dataLine_iff (line : List Char) :
    (∃ cell, dataLine (trim line) = .ok cell) ↔ IsRow IsWord IsWord line :=
  exists_row_iff exists_readWord_iff Prod.mk line

/-! ## Lines in order -/

/-- The separator stands among lines. -/
def IsSeparated (front : List ReadLine) : Prop := ∃ line, .ok line ∈ front ∧ trim line = separator

/-- A line is in order behind others. -/
def InOrder (front : List ReadLine) : ReadLine → Prop
  | .error _ => False
  | .ok line =>
    Text.IsBlankLine line ∨ ¬ IsSeparated front ∧ trim line = separator ∨
      ¬ IsSeparated front ∧ IsRow IsOpcode IsWord line ∨
      IsSeparated front ∧ IsRow IsWord IsWord line

/-- All lines are in order behind others. -/
def AllInOrder (front ls : List ReadLine) : Prop :=
  ∀ mid line behind, ls = mid ++ line :: behind → InOrder (front ++ mid) line

/-- All lines are in order. -/
def IsImage (ls : List ReadLine) : Prop :=
  ∀ front line behind, ls = front ++ line :: behind → InOrder front line

variable {front ls : List ReadLine} {line : ReadLine}

/-- With nothing in front of them, the lines that are all in order are those of an image. -/
lemma allInOrder_nil_iff : AllInOrder [] ls ↔ IsImage ls := .rfl

/-- No lines at all are in order behind any. -/
lemma allInOrder_nil : AllInOrder front [] := by
  intro mid line behind heq
  cases mid <;> cases heq

/-- The first of some lines is in order behind those in front, and the others behind the first as well. -/
lemma allInOrder_cons_iff :
    AllInOrder front (line :: ls) ↔ InOrder front line ∧ AllInOrder (front ++ [line]) ls := by
  constructor
  · intro h
    refine ⟨?_, fun mid other behind heq => ?_⟩
    · have horder := h [] line ls rfl
      rwa [List.append_nil] at horder
    · have horder := h (line :: mid) other behind (by rw [heq]; rfl)
      rwa [List.append_assoc]
  · rintro ⟨hline, hls⟩ mid other behind heq
    cases mid with
    | nil =>
      cases heq
      rwa [List.append_nil]
    | cons next mid =>
      cases heq
      have horder := hls mid other behind rfl
      rwa [List.append_assoc] at horder

/-- If not all lines are in order, there is a first one that is not. -/
lemma exists_disorder (h : ¬ AllInOrder front ls) :
    ∃ mid line behind, ls = mid ++ line :: behind ∧ AllInOrder front mid ∧
      ¬ InOrder (front ++ mid) line := by
  induction ls generalizing front with
  | nil => exact absurd allInOrder_nil h
  | cons line ls ih =>
    by_cases hline : InOrder front line
    · obtain ⟨mid, other, behind, rfl, hmid, hother⟩ :=
        ih fun hall => h (allInOrder_cons_iff.2 ⟨hline, hall⟩)
      refine ⟨line :: mid, other, behind, rfl, allInOrder_cons_iff.2 ⟨hline, hmid⟩, ?_⟩
      rwa [List.append_assoc] at hother
    · exact ⟨[], line, ls, rfl, allInOrder_nil, by rwa [List.append_nil]⟩

/-- With one more line, the separator is that line or stands in front of it. -/
lemma isSeparated_concat :
    IsSeparated (front ++ [line]) ↔
      IsSeparated front ∨ ∃ text, line = .ok text ∧ trim text = separator := by
  simp only [IsSeparated, List.mem_append, List.mem_singleton, or_and_right, exists_or,
    eq_comm (b := line)]

/-! ## The reader -/

/-- What one line makes of what has been read so far. -/
def Draft.read (number : Nat) (s : Draft) : ReadLine → Except ImageError Draft
  | .error e => .error (.unreadable e)
  | .ok line => if trim line = [] then .ok s else (s.line (trim line)).mapError (.line number)

/-- What has been read of lines tells whether the separator stands among them. -/
def Draft.Follows (s : Draft) (front : List ReadLine) : Prop :=
  s.separated = true ↔ IsSeparated front

variable {s : Draft} {number : Nat}

/-- Lines are read one after the other, each with its number. -/
lemma readFrom_cons :
    readFrom number s (line :: ls) = (s.read number line).bind fun s => readFrom (number + 1) s ls := by
  cases line with
  | error e => rfl
  | ok line =>
    rw [readFrom, Draft.read]
    split
    · rfl
    · cases s.line (trim line) <;> rfl

/-- Lines are read one part after the other. -/
lemma readFrom_parts (mid : List ReadLine) :
    readFrom number s (mid ++ ls) =
      (readFrom number s mid).bind fun s => readFrom (number + mid.length) s ls := by
  induction mid generalizing number s with
  | nil => rfl
  | cons line mid ih =>
    rw [List.cons_append, readFrom_cons, readFrom_cons]
    cases s.read number line with
    | error e => rfl
    | ok s =>
      show readFrom (number + 1) s (mid ++ ls) = (readFrom (number + 1) s mid).bind _
      rw [ih, List.length_cons, Nat.add_right_comm, Nat.add_assoc]

namespace Draft

/-- A line is read exactly if it is in order. -/
lemma exists_read_iff (h : s.Follows front) :
    (∃ next, s.read number line = .ok next) ↔ InOrder front line := by
  cases line with
  | error e => exact iff_of_false (by rintro ⟨next, hnext⟩; cases hnext) id
  | ok line =>
    rw [read, InOrder, ← Text.trim_eq_nil_iff]
    by_cases hblank : trim line = []
    · rw [if_pos hblank]
      exact iff_of_true ⟨s, rfl⟩ (.inl hblank)
    · rw [if_neg hblank, or_iff_right hblank, Draft.line]
      simp only [mapError_eq_ok_iff]
      by_cases hseparated : IsSeparated front
      · rw [if_pos (h.2 hseparated), exists_map_eq_ok_iff, exists_dataLine_iff]
        simp only [hseparated, not_true, false_and, false_or, true_and]
      · rw [if_neg (mt h.1 hseparated)]
        simp only [hseparated, not_false_iff, true_and, false_and, or_false]
        by_cases hword : trim line = separator
        · rw [if_pos hword]
          exact iff_of_true ⟨_, rfl⟩ (.inl hword)
        · rw [if_neg hword, or_iff_right hword, exists_map_eq_ok_iff, exists_codeLine_iff]

/-- Only the separator separates. -/
lemma separated_of_line {text : List Char} {next : Draft} (h : s.line text = .ok next) :
    next.separated = true ↔ s.separated = true ∨ text = separator := by
  rw [line] at h
  split at h
  · rename_i hseparated
    obtain ⟨cell, rfl⟩ := exists_of_map_eq_ok h
    exact iff_of_true hseparated (.inl hseparated)
  · rename_i hseparated
    split at h
    · rename_i hword
      cases h
      exact iff_of_true rfl (.inr hword)
    · rename_i hword
      obtain ⟨i, rfl⟩ := exists_of_map_eq_ok h
      exact iff_of_false hseparated fun hor => hor.elim hseparated hword

/-- Behind a line that is read, it is still known whether the separator has been passed. -/
lemma Follows.next (h : s.Follows front) {next : Draft} (hread : s.read number line = .ok next) :
    next.Follows (front ++ [line]) := by
  cases line with
  | error e => cases hread
  | ok text =>
    rw [Follows] at h ⊢
    rw [isSeparated_concat, ← h]
    simp only [Except.ok.injEq, exists_eq_left']
    rw [read] at hread
    split at hread
    · rename_i hblank
      cases hread
      rw [hblank, or_iff_left (by decide)]
    · exact separated_of_line (mapError_eq_ok_iff.1 hread)

/-- The error of a line names it, unless the line cannot be read. -/
lemma read_eq_error {e : ImageError} (h : s.read number line = .error e) :
    (∃ cause, line = .error cause ∧ e = .unreadable cause) ∨
      ∃ text cause, line = .ok text ∧ e = .line number cause := by
  cases line with
  | error cause => exact .inl ⟨cause, rfl, (Except.error.inj h).symm⟩
  | ok text =>
    rw [read] at h
    split at h
    · cases h
    · cases hline : s.line (trim text) with
      | error cause =>
        rw [hline] at h
        exact .inr ⟨text, cause, rfl, (Except.error.inj h).symm⟩
      | ok next =>
        rw [hline] at h
        cases h

end Draft

/-- **Lines are read exactly if all of them are in order.**

**Proof sketch.** Induction on the lines. The draft knows whether the separator stands among the lines
that have been read, and this is all that the order of the next line depends on. -/
lemma exists_readFrom_iff (h : s.Follows front) :
    (∃ last, readFrom number s ls = .ok last) ↔ AllInOrder front ls := by
  induction ls generalizing front s number with
  | nil => exact iff_of_true ⟨s, rfl⟩ allInOrder_nil
  | cons line ls ih =>
    rw [allInOrder_cons_iff, readFrom_cons, exists_bind_eq_ok_iff, ← Draft.exists_read_iff h]
    constructor
    · rintro ⟨next, hnext, hlast⟩
      exact ⟨⟨next, hnext⟩, (ih (h.next hnext)).1 hlast⟩
    · rintro ⟨⟨next, hnext⟩, hls⟩
      exact ⟨next, hnext, (ih (h.next hnext)).2 hls⟩

/-- What has been read of lines follows them. -/
lemma follows_readFrom (h : s.Follows front) {last : Draft} (hread : readFrom number s ls = .ok last) :
    last.Follows (front ++ ls) := by
  induction ls generalizing front s number with
  | nil =>
    cases hread
    rwa [List.append_nil]
  | cons line ls ih =>
    rw [readFrom_cons] at hread
    cases hline : s.read number line with
    | error e =>
      rw [hline] at hread
      cases hread
    | ok next =>
      rw [hline] at hread
      have hlast := ih (h.next hline) hread
      rwa [List.append_assoc] at hlast

/-- Before anything is read there is no separator. -/
lemma follows_start : Draft.Follows {} [] := by
  refine iff_of_false nofun ?_
  rintro ⟨line, hmem, -⟩
  cases hmem

/-- An image is read from lines that are in order, and only from those. -/
lemma exists_ofLines_iff : (∃ image, ofLines ls = .ok image) ↔ IsImage ls := by
  rw [← allInOrder_nil_iff, ← exists_readFrom_iff follows_start, ofLines, exists_map_eq_ok_iff]

/-- **The first line that is out of order decides the error**, together with the lines in front of it. -/
lemma exists_ofLines_error (hfront : IsImage front) (hline : ¬ InOrder front line) :
    ∃ (s : Draft) (e : ImageError), s.read (front.length + 1) line = .error e ∧
      ∀ line' behind, s.read (front.length + 1) line' = .error e →
        ofLines (front ++ line' :: behind) = .error e := by
  obtain ⟨s, hs⟩ : ∃ s, readFrom 1 {} front = .ok s :=
    (exists_readFrom_iff follows_start).2 (allInOrder_nil_iff.2 hfront)
  have hfollows : s.Follows front := follows_readFrom follows_start hs
  cases hread : s.read (front.length + 1) line with
  | ok next => exact absurd ((Draft.exists_read_iff hfollows).1 ⟨next, hread⟩) hline
  | error e =>
    refine ⟨s, e, hread, fun line' behind hline' => ?_⟩
    rw [Nat.add_comm] at hline'
    rw [ofLines, readFrom_parts, hs]
    show (readFrom (1 + front.length) s (line' :: behind)).map _ = _
    rw [readFrom_cons, hline']
    rfl

/-! ## Bytes -/

/-- A line of bytes as it is read. -/
def decodeLine (bytes : List UInt8) : ReadLine :=
  match Text.decode bytes with
  | some line => .ok line
  | none => .error .notUtf8

/-- The lines of a byte string are cut first, and then decoded one by one. -/
lemma readLines_eq_map (bytes : ByteArray) :
    readLines bytes = (Text.cutLines 10 13 bytes.data.toList).map decodeLine := List.map_map

/-- A line without bytes is the empty line. -/
lemma decodeLine_nil : decodeLine [] = .ok [] := by
  have hnil : Text.decode [] = some [] := Text.decode_encode []
  rw [decodeLine, hnil]

/-- A line of bytes cannot be read for one reason only. -/
lemma eq_notUtf8_of_decodeLine {bytes : List UInt8} {cause : ReadError}
    (h : decodeLine bytes = .error cause) : cause = .notUtf8 := by
  rw [decodeLine] at h
  split at h
  · cases h
  · exact (Except.error.inj h).symm

/-- A carriage return at the end of a line does not matter to the reader. -/
lemma read_decodeLine_of_readAs {bytes shown : List UInt8} (h : Text.ReadAs 13 bytes shown) :
    s.read number (decodeLine shown) = s.read number (decodeLine bytes) := by
  rcases h with rfl | rfl
  · rfl
  · rw [decodeLine, decodeLine, Text.decode_append_return]
    cases Text.decode shown with
    | none => rfl
    | some text => simp only [Option.map_some, Draft.read, Text.trim_append_return]

/-- The first line of bytes that is out of order, with what has been read of the lines in front of it. -/
structure Disorder (bytes : ByteArray) (e : ImageError) where
  /-- The lines in front of it. -/
  before : List (List UInt8)
  /-- The line. -/
  line : List UInt8
  /-- The lines behind it. -/
  later : List (List UInt8)
  /-- What has been read of the lines in front. -/
  draft : Draft
  cut_eq : Text.cutLines 10 13 bytes.data.toList = before ++ line :: later
  front_isImage : IsImage (before.map decodeLine)
  not_inOrder : ¬ InOrder (before.map decodeLine) (decodeLine line)
  read_eq : draft.read ((before.map decodeLine).length + 1) (decodeLine line) = .error e
  /-- Any line in its place that is refused in the same way makes the same error. -/
  ofLines_eq : ∀ line' behind, draft.read ((before.map decodeLine).length + 1) line' = .error e →
    ofLines (before.map decodeLine ++ line' :: behind) = .error e

/-- The lines in front of the one that is out of order, this line and those behind it are all there is to
read. -/
lemma Disorder.readLines_eq {bytes : ByteArray} {e : ImageError} (d : Disorder bytes e) :
    readLines bytes = d.before.map decodeLine ++ decodeLine d.line :: d.later.map decodeLine := by
  rw [readLines_eq_map, d.cut_eq, List.map_append, List.map_cons]

/-- Bytes that are not read have a first line that is out of order. -/
lemma exists_disorder_of_error {bytes : ByteArray} {e : ImageError}
    (h : ofLines (readLines bytes) = .error e) : Nonempty (Disorder bytes e) := by
  have hnot : ¬ AllInOrder [] (readLines bytes) := by
    rw [allInOrder_nil_iff, ← exists_ofLines_iff]
    rintro ⟨image, himage⟩
    rw [h] at himage
    cases himage
  obtain ⟨front, line, behind, hlines, hfront, hline⟩ := exists_disorder hnot
  obtain ⟨s, found, hread, hall⟩ := exists_ofLines_error (allInOrder_nil_iff.1 hfront) hline
  have hfound := hall line behind hread
  rw [← hlines, h] at hfound
  obtain rfl := Except.error.inj hfound
  rw [readLines_eq_map] at hlines
  obtain ⟨before, rest, hcut, rfl, hrest⟩ := List.map_eq_append_iff.1 hlines
  obtain ⟨line, later, rfl, rfl, rfl⟩ := List.map_eq_cons_iff.1 hrest
  exact ⟨before, line, later, s, hcut, allInOrder_nil_iff.1 hfront, hline, hread, hall⟩

/-- **Exactly the images are read.** Bytes are read if and only if each line of them is in order. If they
are not, the error is that of the first line that is out of order: whatever follows this line, another
line end, other text or nothing, the error is the same.

**Proof sketch.** The first line out of order stands at a place. Any text with the same bytes in front of
that line and the line itself has the same lines up to this one, except that the line end behind it may
take a carriage return from it or leave it. The reader trims the line and does not see the difference. -/
theorem bytes_read_iff_image (bytes : ByteArray) :
    ((∃ image, ofLines (readLines bytes) = .ok image) ↔ IsImage (readLines bytes)) ∧
      ∀ e, ofLines (readLines bytes) = .error e →
        ∃ (p : Text.Place (10 : UInt8) 13) (line : List UInt8),
          p.fill line = bytes.data.toList ∧
          readLines bytes =
            p.before.map decodeLine ++ decodeLine line :: p.later.map decodeLine ∧
          IsImage (p.before.map decodeLine) ∧
          ¬ InOrder (p.before.map decodeLine) (decodeLine line) ∧
          ∀ other : Text.Place (10 : UInt8) 13, other.front = p.front →
            ofLines (readLines (other.fill line).toByteArray) = .error e := by
  refine ⟨exists_ofLines_iff, fun e he => ?_⟩
  obtain ⟨d⟩ := exists_disorder_of_error he
  obtain ⟨p, hfill, hbefore, hlater, hfeed⟩ := Text.exists_standsAt (by decide) d.cut_eq
  refine ⟨p, d.line, hfill, ?_, ?_, ?_, fun other hother => ?_⟩
  · rw [hbefore, hlater, d.readLines_eq]
  · rw [hbefore]
    exact d.front_isImage
  · rw [hbefore]
    exact d.not_inOrder
  · have hne : d.line ≠ [] := by
      intro hnil
      have hnot := d.not_inOrder
      rw [hnil, decodeLine_nil] at hnot
      exact hnot (.inl Text.isBlankLine_nil)
    have hfront : other.before = d.before := by
      rw [Text.Place.before, hother, ← hbefore, Text.Place.before]
    obtain ⟨shown, hshown, hcut⟩ := other.cutLines_fill (by decide) hne hfeed
    rw [readLines_eq_map, List.toList_data_toByteArray, hcut, hfront, List.map_append, List.map_cons]
    refine d.ofLines_eq _ _ ?_
    rw [read_decodeLine_of_readAs hshown, d.read_eq]

/-! ## The wording of errors -/

/-- How the error of a line starts if it names the line. -/
def lineMark (number : Nat) : String := "line " ++ Numeral.decimal number ++ ":"

/-- The error of a malformed line starts with the number of the line. -/
lemma lineMark_isPrefix (number : Nat) (cause : ImageLineError) :
    (lineMark number).toList <+: (ImageError.line number cause).message.toList := by
  refine ⟨' ' :: cause.message.toList, ?_⟩
  simp [lineMark, ImageError.message, String.toList_append]

/-- The error of a line that is not UTF-8 starts with the number of no line. -/
lemma not_lineMark_isPrefix (number : Nat) :
    ¬ (lineMark number).toList <+: (ImageError.unreadable .notUtf8).message.toList := by
  rintro ⟨rest, h⟩
  rw [lineMark, String.toList_append, String.toList_append] at h
  exact absurd (List.cons.inj h).1 (by decide)

/-- The error of a line names the line exactly if it is UTF-8. -/
lemma names_line_iff {bytes : List UInt8} {e : ImageError}
    (h : s.read number (decodeLine bytes) = .error e) :
    ((lineMark number).toList <+: e.message.toList ↔ ∃ text, decodeLine bytes = .ok text) ∧
      (decodeLine bytes = .error .notUtf8 → e.message = "stream did not contain valid UTF-8") := by
  rcases Draft.read_eq_error h with ⟨cause, hcause, rfl⟩ | ⟨text, cause, htext, rfl⟩
  · obtain rfl := eq_notUtf8_of_decodeLine hcause
    refine ⟨iff_of_false (not_lineMark_isPrefix number) ?_, fun _ => rfl⟩
    rintro ⟨text, htext⟩
    rw [hcause] at htext
    cases htext
  · refine ⟨iff_of_true (lineMark_isPrefix number cause) ⟨text, htext⟩, fun hnot => ?_⟩
    rw [htext] at hnot
    cases hnot

/-- **The errors that name their line.** The error of the first line that is out of order starts with the
number of this line, blank lines and the separator included, unless the line is not UTF-8. An error of
that kind does not name its line. -/
theorem error_names_line_iff {bytes : ByteArray} {e : ImageError}
    (h : ofLines (readLines bytes) = .error e) :
    ∃ front line behind, readLines bytes = front ++ line :: behind ∧ IsImage front ∧
      ¬ InOrder front line ∧
      ((lineMark (front.length + 1)).toList <+: e.message.toList ↔ ∃ text, line = .ok text) ∧
      (line = .error .notUtf8 → e.message = "stream did not contain valid UTF-8") := by
  obtain ⟨d⟩ := exists_disorder_of_error h
  exact ⟨_, _, _, d.readLines_eq, d.front_isImage, d.not_inOrder, names_line_iff d.read_eq⟩

/-- A code line with one field, behind a blank line. -/
theorem error_names_line_iff_third_line :
    ∃ e, ofLines (readLines "1b c\n\n1b\n".toUTF8) = .error e ∧
      ∃ front line behind, readLines "1b c\n\n1b\n".toUTF8 = front ++ line :: behind ∧
        IsImage front ∧ ¬ InOrder front line ∧
        ((lineMark (front.length + 1)).toList <+: e.message.toList ↔ ∃ text, line = .ok text) := by
  have h : ofLines (readLines "1b c\n\n1b\n".toUTF8) = .error (.line 3 (.fields "1b".toList)) := by
    decide +kernel
  obtain ⟨front, line, behind, hlines, hfront, hline, hmark, -⟩ := error_names_line_iff h
  exact ⟨_, h, front, line, behind, hlines, hfront, hline, hmark⟩

/-- The second line is not UTF-8, and its number is missing from the error. -/
theorem error_names_no_line :
    readLines [0x31, 0x62, 0x20, 0x63, 0x0a, 0xff].toByteArray = [.ok "1b c".toList, .error .notUtf8] ∧
      IsImage [.ok "1b c".toList] ∧ ¬ InOrder [.ok "1b c".toList] (.error .notUtf8) ∧
      ∃ e, ofLines (readLines [0x31, 0x62, 0x20, 0x63, 0x0a, 0xff].toByteArray) = .error e ∧
        e.message = "stream did not contain valid UTF-8" ∧
        ¬ "line 2:".toList <+: e.message.toList := by
  have himage : ofLines [.ok "1b c".toList] = .ok ⟨[⟨0x1b, 0xc⟩], []⟩ := by decide +kernel
  exact ⟨by decide +kernel, exists_ofLines_iff.1 ⟨_, himage⟩, id, .unreadable .notUtf8,
    by decide +kernel, rfl, by decide⟩

end AccumulatorMachine.Image

/-!
# Blank characters

The characters that separate fields and surround lines, and the two operations on a line that only
depend on them: trimming, and cutting into fields.

## Main definitions

* `Text.isBlank` — the characters with the Unicode property `White_Space`.
* `Text.trim` — a line without the blanks at its ends.
* `Text.fields` — the maximal runs of characters that are not blank, in order.

## Main results

* `Text.fields_eq_nil_iff` — a line has no field exactly when all of it is blank.
* `Text.trim_eq_nil_iff` — trimming leaves nothing exactly when the line is blank.
-/

set_option autoImplicit false

namespace AccumulatorMachine.Text

/-- The characters with the Unicode property `White_Space`. -/
def isBlank (c : Char) : Bool :=
  let n := c.toNat
  (0x09 ≤ n && n ≤ 0x0D) || n == 0x20 || n == 0x85 || n == 0xA0 || n == 0x1680 ||
    (0x2000 ≤ n && n ≤ 0x200A) || n == 0x2028 || n == 0x2029 || n == 0x202F || n == 0x205F ||
    n == 0x3000

/-- A line of blanks only, the empty line included. -/
def IsBlankLine (line : List Char) : Prop := ∀ c ∈ line, isBlank c = true

/-- A line is searched for a character that is not blank. -/
instance (line : List Char) : Decidable (IsBlankLine line) :=
  List.decidableBAll (isBlank · = true) line

/-- A line without the blanks at its end. -/
def trimEnd (line : List Char) : List Char := (line.reverse.dropWhile isBlank).reverse

/-- A line without the blanks at its start and at its end. -/
def trim (line : List Char) : List Char := trimEnd (line.dropWhile isBlank)

/-- Dropping never lengthens a list. -/
theorem length_dropWhile_le {α : Type} (p : α → Bool) (l : List α) :
    (l.dropWhile p).length ≤ l.length :=
  (List.dropWhile_suffix p).length_le

/-- The fields of a line: its maximal runs of characters that are not blank. -/
def fields (line : List Char) : List (List Char) :=
  match _h : line.dropWhile isBlank with
  | [] => []
  | c :: rest =>
    (c :: rest.takeWhile (!isBlank ·)) :: fields (rest.dropWhile (!isBlank ·))
termination_by line.length
decreasing_by
  have := length_dropWhile_le isBlank line
  have := length_dropWhile_le (!isBlank ·) rest
  simp only [_h, List.length_cons] at *
  omega

/-- Everything is dropped exactly when every member may be. -/
theorem dropWhile_eq_nil_iff {α : Type} (p : α → Bool) (l : List α) :
    l.dropWhile p = [] ↔ ∀ c ∈ l, p c = true := by
  induction l with
  | nil => simp
  | cons c cs ih => by_cases h : p c = true <;> simp [h, ih]

/-- A line has no field exactly when all of it is blank. -/
theorem fields_eq_nil_iff (line : List Char) : fields line = [] ↔ IsBlankLine line := by
  rw [fields, IsBlankLine, ← dropWhile_eq_nil_iff]
  split
  · simp [*]
  · simp [*]

/-- What is left after dropping may all be dropped exactly when everything may. -/
theorem forall_mem_dropWhile_iff {α : Type} (p : α → Bool) (l : List α) :
    (∀ c ∈ l.dropWhile p, p c = true) ↔ ∀ c ∈ l, p c = true := by
  induction l with
  | nil => simp
  | cons c cs ih => by_cases h : p c = true <;> simp [h, ih]

/-- Trimming leaves nothing exactly when the line is blank. -/
theorem trim_eq_nil_iff (line : List Char) : trim line = [] ↔ IsBlankLine line := by
  rw [IsBlankLine, ← forall_mem_dropWhile_iff]
  rw [trim, trimEnd, List.reverse_eq_nil_iff, dropWhile_eq_nil_iff]
  simp only [List.mem_reverse]

end AccumulatorMachine.Text

/-!
# Lines

How a text is cut into lines, as characters or as bytes, and how a line of bytes is decoded.

A line ends at a line feed. A carriage return right before that line feed belongs to the line end.
What stands after the last line feed is one more line unless it is empty, and it is kept whole: its
final carriage return, if any, ends no line.

## Main definitions

* `Text.cutLines` — the lines of a sequence, for any two symbols that serve as line feed and
  carriage return.
* `Text.lines` — the lines of a text.
* `Text.decode` — the characters of a byte string in UTF-8, when it is one.
* `Text.byteLines` — the lines of a byte string, each decoded on its own.

## Main results

* `Text.cutLines_cons` — the lines of a text from those of its tail.

## Implementation notes

The cut is a fold from the right, so long texts need no deep stack. The fold carries, beside the lines
of what follows, whether a line feed follows directly: a carriage return looks at that.
-/

set_option autoImplicit false

namespace AccumulatorMachine.Text

section Cut

variable {α : Type} [DecidableEq α] (feed ret : α)

/-- Puts a symbol in front of the first line. -/
def pushFirst (c : α) : List (List α) → List (List α)
  | [] => [[c]]
  | line :: lines => (c :: line) :: lines

/-- One symbol in front of a text already cut: whether the whole now starts with a line feed, and its
lines. -/
def cutStep (c : α) (rest : Bool × List (List α)) : Bool × List (List α) :=
  if c = feed then (true, [] :: rest.2)
  else if c = ret ∧ rest.1 = true then (false, rest.2)
  else (false, pushFirst c rest.2)

/-- The lines of a sequence, without their line ends. -/
def cutLines (text : List α) : List (List α) :=
  (text.foldr (cutStep feed ret) (false, [])).2

/-- The empty text has no line. -/
@[simp] theorem cutLines_nil : cutLines feed ret ([] : List α) = [] := rfl

/-- The fold knows whether the text starts with a line feed. -/
theorem foldr_cutStep_fst (text : List α) :
    (text.foldr (cutStep feed ret) (false, [])).1 = decide (text.head? = some feed) := by
  cases text with
  | nil => rfl
  | cons c cs =>
    simp only [List.foldr_cons, cutStep, List.head?_cons, Option.some.injEq]
    by_cases h : c = feed
    · simp [h]
    · rw [if_neg h, decide_eq_false h]
      split <;> rfl

/-- The lines of a text from those of its tail: a line feed opens with an empty line, a carriage
return before a line feed disappears, and any other symbol joins the first line. -/
theorem cutLines_cons (c : α) (cs : List α) :
    cutLines feed ret (c :: cs) =
      if c = feed then [] :: cutLines feed ret cs
      else if c = ret ∧ cs.head? = some feed then cutLines feed ret cs
      else pushFirst c (cutLines feed ret cs) := by
  simp only [cutLines, List.foldr_cons]
  rw [cutStep, foldr_cutStep_fst]
  simp only [decide_eq_true_eq]
  split
  · rfl
  · split <;> rfl

end Cut

/-- The lines of a text. -/
def lines (text : List Char) : List (List Char) := cutLines '\n' '\r' text

/-- The characters that a byte string spells in UTF-8, `none` when it is not UTF-8. -/
def decode (bytes : List UInt8) : Option (List Char) :=
  (String.fromUTF8? bytes.toByteArray).map String.toList

/-- The lines of a byte string, each decoded on its own: a line that is not UTF-8 spoils no other. -/
def byteLines (bytes : ByteArray) : List (Option (List Char)) :=
  (cutLines 10 13 bytes.data.toList).map decode

end AccumulatorMachine.Text

/-!
# Capitals

The upper case of a token, as far as it matters for words that are written in the letters `A` to `Z`.

## Main definitions

* `Text.capital` — the upper case of a character whose upper case consists of the letters `A` to `Z`.
* `Text.capitals` — the upper case of a token.

## Implementation notes

Every other character is left as it is. Neither it nor its upper case consists of the letters `A` to
`Z`, so a token with such a character never equals a mnemonic or a separator, in either reading.
-/

set_option autoImplicit false

namespace AccumulatorMachine.Text

/-- The upper case of a character whose upper case consists of the letters `A` to `Z`: the letters
`a` to `z`, and the ligatures and variants of letters that are spelled out. -/
def capital : Char → List Char
  | 'ß' => ['S', 'S']
  | 'ı' => ['I']
  | 'ſ' => ['S']
  | 'ﬀ' => ['F', 'F']
  | 'ﬁ' => ['F', 'I']
  | 'ﬂ' => ['F', 'L']
  | 'ﬃ' => ['F', 'F', 'I']
  | 'ﬄ' => ['F', 'F', 'L']
  | 'ﬅ' => ['S', 'T']
  | 'ﬆ' => ['S', 'T']
  | c => [c.toUpper]

/-- The upper case of a token. -/
def capitals (token : List Char) : List Char := token.flatMap capital

end AccumulatorMachine.Text

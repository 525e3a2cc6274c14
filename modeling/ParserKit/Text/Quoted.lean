import ParserKit.Text.ExtendingMark
import ParserKit.Text.Unprintable

set_option autoImplicit false

/-! # Quoted characters and texts

A quotation puts its delimiter before and after the quoted characters and escapes what would be
invisible or ambiguous in between: the delimiter itself, the backslash, the control characters with
a short escape, and, by their code point, all other unprintable characters and extending marks.
The other kind of quote needs no escape. Quoting is stated on lists of characters, where it can be
reasoned about character by character; `quoteChar` and `quoteText` are its two uses.
-/

namespace ParserKit.Text

/-- A character as its code point in hexadecimal: a backslash, the letter `u`, and the digits
without leading zeros between braces. -/
def codePointEscape (c : Char) : List Char :=
  ['\\', 'u', '{'] ++ Nat.toDigits 16 c.toNat ++ ['}']

/-- How `c` is written between two copies of `delimiter`. -/
def escape (delimiter c : Char) : List Char :=
  if c = '\x00' then ['\\', '0']
  else if c = '\t' then ['\\', 't']
  else if c = '\r' then ['\\', 'r']
  else if c = '\n' then ['\\', 'n']
  else if c = '\\' ∨ c = delimiter then ['\\', c]
  -- A mark would join the character before it, and an unprintable one would not be seen.
  else if isExtendingMark c || isUnprintable c then codePointEscape c
  else [c]

/-- The quotation of `cs` by `delimiter`. -/
def quote (delimiter : Char) (cs : List Char) : List Char :=
  delimiter :: (cs.flatMap (escape delimiter) ++ [delimiter])

/-- A character in single quotes. -/
def quoteChar (c : Char) : String := String.ofList (quote '\'' [c])

/-- A text in double quotes. -/
def quoteText (s : String) : String := String.ofList (quote '"' s.toList)

end ParserKit.Text

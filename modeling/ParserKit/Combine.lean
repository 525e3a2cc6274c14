set_option autoImplicit false

/-! # Combining values

Functions of one argument after the other, for use with `Parser.map` and `Parser.apply`: the value
of the first parser is kept until that of the second is there.
-/

namespace ParserKit.Combine

variable {α β : Type}

/-- Both values as a pair. -/
def tuple (a : α) (b : β) : α × β := (a, b)

/-- A list with one value more at its front. -/
def extend (a : α) (items : List α) : List α := a :: items

/-- Two lists one after the other. -/
def join (first second : List α) : List α := first ++ second

/-- A text with characters added at its end. -/
def joinText (text : String) (characters : List Char) : String :=
  text ++ String.ofList characters

end ParserKit.Combine

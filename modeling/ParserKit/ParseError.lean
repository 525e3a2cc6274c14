import ParserKit.Describe

set_option autoImplicit false

/-! # Parse errors

Why a parser refused its input: the input ended, it went on with another token than expected, or a
rule of the grammar's own was broken. Each error carries the position at which it arose, counted in
tokens from the start of the source.
-/

namespace ParserKit

/-- The reason of a failed parse. -/
inductive ParseError where
  /-- Something was expected and the input was at its end. -/
  | endOfInput (expected : String) (position : Nat)
  /-- Something was expected and another token was found. -/
  | unexpected (expected found : String) (position : Nat)
  /-- A failure with a text of its own. -/
  | message (text : String) (position : Nat)
  deriving DecidableEq

namespace ParseError

/-- The position at which the error arose. -/
def position : ParseError → Nat
  | endOfInput _ n => n
  | unexpected _ _ n => n
  | message _ n => n

/-- What was expected instead; an error with a text of its own does not say. -/
def expected? : ParseError → Option String
  | endOfInput e _ => some e
  | unexpected e _ _ => some e
  | message _ _ => none

/-- The part of the error's text that precedes its position. -/
def reason : ParseError → String
  | endOfInput e _ => "expected " ++ e ++ ", found end of input"
  | unexpected e f _ => "expected " ++ e ++ ", found " ++ f
  | message m _ => m

/-- The text of the error, as it is shown to a user. -/
def render (e : ParseError) : String := e.reason ++ " at position " ++ Nat.repr e.position

instance : Describe ParseError where
  describe
    | endOfInput e n =>
        Text.record "EndOfInput" [("expected", describe e), ("position", describe n)]
    | unexpected e f n =>
        Text.record "Unexpected"
          [("expected", describe e), ("found", describe f), ("position", describe n)]
    | message m n => Text.record "Message" [("message", describe m), ("position", describe n)]

end ParseError

end ParserKit

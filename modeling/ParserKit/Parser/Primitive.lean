import ParserKit.Cursor
import ParserKit.Describe
import ParserKit.Parser.Basic

set_option autoImplicit false

/-! # Primitive parsers

The parsers that look at the input themselves: one accepted token, a given token, any token, the
end of the input; and the two that succeed without looking. A refused token is reported with its
description and the position of the cursor.
-/

namespace ParserKit.Parser

variable {σ τ α : Type} [Cursor σ τ]

/-- Takes one token that `accept` holds of; `expected` names it in errors. -/
def satisfy [Describe τ] (expected : String) (accept : τ → Bool) : Parser σ τ :=
  ofFunction fun c =>
    match Cursor.next? c with
    | some (t, rest) =>
      if accept t then .success t rest
      else .failure (.unexpected expected (describe t) (Cursor.position c))
    | none => .failure (.endOfInput expected (Cursor.position c))

/-- Takes a token that equals `t`, named by the description of `t`. Any test of equality will do: it
need not be lawful. -/
def token [Describe τ] [BEq τ] (t : τ) : Parser σ τ := satisfy (describe t) (· == t)

/-- Takes any token. -/
def anyToken [Describe τ] : Parser σ τ := satisfy "anything" fun _ => true

/-- Succeeds, without moving, if no token is left. -/
def endOfInput [Describe τ] : Parser σ Unit :=
  ofFunction fun c =>
    match Cursor.next? c with
    | some (t, _) => .failure (.unexpected "end of input" (describe t) (Cursor.position c))
    | none => .success () c

omit [Cursor σ τ]

/-- Succeeds with `v`, without moving. -/
protected def pure (v : α) : Parser σ α := ofFunction fun c => .success v c

/-- Succeeds with no values, without moving. -/
def emptyList : Parser σ (List α) := ofFunction fun c => .success [] c

end ParserKit.Parser

import ParserKit.Cursor
import ParserKit.Parser.Basic

set_option autoImplicit false

/-! # Checks

What a test of a parser can demand: that it succeeds, perhaps with a given value and a given number
of tokens read; that it fails; that two parsers do the same. A check either passes or is violated,
and a violation says how.
-/

namespace ParserKit

variable {σ α : Type}

instance [BEq σ] [BEq α] : BEq (Outcome σ α) where
  beq
    | .success v rest, .success v' rest' => v == v' && rest == rest'
    | .failure e, .failure e' => e == e'
    | _, _ => false

instance [Describe σ] [Describe α] : Describe (Outcome σ α) where
  describe
    | .success v rest => Text.application "Ok" [Text.tuple [describe v, describe rest]]
    | .failure e => Text.application "Err" [describe e]

/-- How a check on the input `input` was violated. -/
inductive Violation (σ α : Type) where
  /-- The parser should have succeeded. -/
  | refused (input : σ) (error : ParseError)
  /-- The parser succeeded with another value. -/
  | wrongValue (input : σ) (actual expected : α)
  /-- The parser stopped before the place where it had started. -/
  | movedBackwards (started stopped : Nat)
  /-- The parser read another number of tokens. -/
  | wrongConsumption (actual expected : Nat)
  /-- The parser should have failed. -/
  | accepted (value : α)
  /-- The parser failed without saying why. -/
  | noMessage
  /-- The two parsers differ. -/
  | differentOutcomes (input : σ) (first second : Outcome σ α)
  /-- The two parsers agree, but on the wrong side. -/
  | wrongSide (input : σ) (actual expected : Bool)

/-- The text of a failed comparison of two described things. -/
def comparisonText (complaint left right : String) : String :=
  "assertion `left == right` failed: " ++ complaint ++ "\n  left: " ++ left ++ "\n right: " ++ right

/-- The text of a violation. -/
def Violation.render [Describe σ] [Describe α] : Violation σ α → String
  | refused input error => "with input " ++ describe input ++ ": " ++ error.render
  | wrongValue input actual expected =>
    comparisonText
      ("with input " ++ describe input ++ ": output should be " ++ describe expected ++ ", was "
        ++ describe actual)
      (describe actual) (describe expected)
  | movedBackwards started stopped =>
    "cursor moved backwards: started at " ++ describe started ++ ", ended at " ++ describe stopped
  | wrongConsumption actual expected =>
    comparisonText ("should have consumed " ++ describe expected ++ ", took " ++ describe actual)
      (describe actual) (describe expected)
  | accepted value =>
    "parsing succeeded with output " ++ describe value ++ ", should have failed"
  | noMessage => "should have an error message"
  | differentOutcomes input first second =>
    comparisonText
      ("with input " ++ describe input ++ ": parsers should produce the same outcome")
      (describe first) (describe second)
  | wrongSide input actual expected =>
    comparisonText
      ("with input " ++ describe input ++ ": parsing should have "
        ++ (if expected then "succeeded" else "failed"))
      (describe actual) (describe expected)

/-- Demands that exactly `expected` tokens lie between two positions. -/
def checkConsumption (started stopped expected : Nat) : Except (Violation σ α) Unit :=
  if stopped < started then .error (.movedBackwards started stopped)
  else if stopped - started = expected then .ok ()
  else .error (.wrongConsumption (stopped - started) expected)

namespace Outcome

/-- Demands success on `input`, with the value `expected` and `consumed` tokens read where these are
given, and returns the cursor behind. The value is checked first. -/
def checkSuccess {τ : Type} [Cursor σ τ] [BEq α] (o : Outcome σ α) (input : σ)
    (expected : Option α) (consumed : Option Nat) : Except (Violation σ α) σ :=
  match o with
  | failure error => .error (.refused input error)
  | success value rest => do
    -- The value first: a wrong one is reported even if the consumption is wrong, too.
    if let some x := expected then
      unless value == x do throw (.wrongValue input value x)
    if let some k := consumed then
      checkConsumption (Cursor.position input) (Cursor.position rest) k
    return rest

/-- Demands a failure with some text. -/
def checkFailure (o : Outcome σ α) : Except (Violation σ α) Unit :=
  match o with
  | success value _ => .error (.accepted value)
  | failure error => if error.render.isEmpty then .error .noMessage else .ok ()

/-- Demands that two outcomes on `input` are equal, and a success or a failure as `side` says. -/
def checkEqual [BEq σ] [BEq α] (o o' : Outcome σ α) (input : σ) (side : Option Bool) :
    Except (Violation σ α) Unit :=
  if o == o' then
    match side with
    | some b => if o.isSuccess == b then .ok () else .error (.wrongSide input o.isSuccess b)
    | none => .ok ()
  else .error (.differentOutcomes input o o')

end Outcome

namespace Parser

/-- Demands that `p` succeeds on `input` within a budget. -/
def checkSucceeds {τ : Type} [Cursor σ τ] [BEq α] (p : Parser σ α) (budget : Nat) (input : σ)
    (expected : Option α) (consumed : Option Nat) :
    Except Interruption (Except (Violation σ α) σ) := do
  let o ← p.run budget input
  return o.checkSuccess input expected consumed

/-- Demands that `p` fails on `input` within a budget. -/
def checkFails (p : Parser σ α) (budget : Nat) (input : σ) :
    Except Interruption (Except (Violation σ α) Unit) := do
  let o ← p.run budget input
  return o.checkFailure

/-- Demands that `p` and `q` have the same outcome on `input` within a budget. -/
def checkEqually [BEq σ] [BEq α] (p q : Parser σ α) (budget : Nat) (input : σ)
    (side : Option Bool) : Except Interruption (Except (Violation σ α) Unit) := do
  let o ← p.run budget input
  let o' ← q.run budget input
  return o.checkEqual o' input side

end Parser

end ParserKit

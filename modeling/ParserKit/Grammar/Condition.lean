import ParserKit.Value.Call

set_option autoImplicit false

/-! # Conditions and predicates

The tests that a written grammar can name: conditions on tokens, for accepting one, and predicates
on values, for filtering them.
-/

namespace ParserKit

variable {τ : Type}

/-- A test of a token. -/
inductive Condition (τ : Type) where
  /-- One of the given tokens. -/
  | oneOf (items : List τ)
  /-- None of the given tokens. -/
  | noneOf (items : List τ)
  /-- A token of the given class. -/
  | inClass (kind : TokenClass)
  /-- A token that stands for an integer not below the given one. -/
  | atLeast (least : Int)
  | always
  | never

namespace Condition

/-- Whether the condition holds of a token. -/
def holds [DecidableEq τ] [Token τ] : Condition τ → τ → Bool
  | oneOf items, t => items.contains t
  | noneOf items, t => !items.contains t
  | inClass kind, t => Token.hasClass kind t
  | atLeast least, t =>
    match Token.asInt? t with
    | some n => least ≤ n
    | none => false
  | always, _ => true
  | never, _ => false

/-- The condition to be in the class with the given name. No token is in a class that does not
exist. -/
def ofClassName (name : String) : Condition τ :=
  match TokenClass.ofName? name with
  | some kind => inClass kind
  | none => never

end Condition

/-- A test of a value. -/
inductive Predicate (τ : Type) where
  /-- A list or text with fewer parts. -/
  | shorterThan (bound : Nat)
  /-- A list or text with at least so many parts. -/
  | notShorterThan (bound : Nat)
  /-- A smaller integer. -/
  | lessThan (bound : Int)
  /-- An even integer. -/
  | even
  /-- The given value. -/
  | equals (expected : Value τ)
  /-- A token with the given condition. -/
  | token (condition : Condition τ)
  | always
  | never

/-- The number of parts of a list or a text. -/
def Value.length? : Value τ → Option Nat
  | list items => some items.length
  | text s => some s.length
  | _ => none

/-- Whether the predicate holds of a value. -/
def Predicate.holds [DecidableEq τ] [Token τ] : Predicate τ → Value τ → Bool
  | shorterThan bound, v => v.length?.any (· < bound)
  | notShorterThan bound, v => v.length?.any (bound ≤ ·)
  | lessThan bound, .int n => n < bound
  | even, .int n => n % 2 == 0
  | equals expected, v => decide (v = expected)
  | token condition, .element t => condition.holds t
  | always, _ => true
  | _, _ => false

end ParserKit

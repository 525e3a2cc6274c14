import ParserKit.Span
import ParserKit.Value.Operation

set_option autoImplicit false

/-! # Values

What the parsers of a grammar yield. Grammars are not typed, so all of them share one type of
values; an operation that is applied to the wrong values yields `illTyped`, which is a value like
any other. Integers are those of 64 bits: an operation that leaves their range is ill-typed too.
-/

namespace ParserKit

/-- The values of a grammar over tokens of type `τ`. -/
inductive Value (τ : Type) where
  | unit
  | bool (b : Bool)
  | int (n : Int)
  /-- A token of the input. -/
  | element (t : τ)
  | text (s : String)
  | list (items : List (Value τ))
  | pair (first second : Value τ)
  | span (s : Span)
  /-- An operation that waits for more arguments. -/
  | function (operation : Operation) (arguments : List (Value τ))
  | illTyped

namespace Value

variable {τ : Type}

/-! ## Equality -/

mutual

/-- Whether two values are equal. -/
def beq [DecidableEq τ] : Value τ → Value τ → Bool
  | unit, unit => true
  | bool a, bool b => a == b
  | int a, int b => a == b
  | element a, element b => decide (a = b)
  | text a, text b => a == b
  | list as, list bs => beqAll as bs
  | pair a a', pair b b' => beq a b && beq a' b'
  | span a, span b => decide (a = b)
  | function f as, function g bs => decide (f = g) && beqAll as bs
  | illTyped, illTyped => true
  | _, _ => false

/-- Whether two lists of values are equal. -/
def beqAll [DecidableEq τ] : List (Value τ) → List (Value τ) → Bool
  | [], [] => true
  | a :: as, b :: bs => beq a b && beqAll as bs
  | _, _ => false

end

mutual

theorem beq_iff [DecidableEq τ] : ∀ a b : Value τ, beq a b = true ↔ a = b
  | unit, b => by cases b <;> simp [beq]
  | bool _, b => by cases b <;> simp [beq]
  | int _, b => by cases b <;> simp [beq]
  | element _, b => by cases b <;> simp [beq]
  | text _, b => by cases b <;> simp [beq]
  | list as, b => by
    cases b <;> simp [beq]
    exact beqAll_iff as _
  | pair a a', b => by
    cases b <;> simp [beq]
    rw [beq_iff a, beq_iff a']
  | span _, b => by cases b <;> simp [beq]
  | function _ as, b => by
    cases b <;> simp [beq]
    rw [beqAll_iff as]
    exact fun _ => Iff.rfl
  | illTyped, b => by cases b <;> simp [beq]

theorem beqAll_iff [DecidableEq τ] : ∀ as bs : List (Value τ), beqAll as bs = true ↔ as = bs
  | [], bs => by cases bs <;> simp [beqAll]
  | a :: as, bs => by
    cases bs <;> simp [beqAll]
    rw [beq_iff a, beqAll_iff as]

end

instance [DecidableEq τ] : DecidableEq (Value τ) := fun a b =>
  decidable_of_iff (beq a b = true) (beq_iff a b)

/-! ## Descriptions -/

mutual

/-- The description of a value. -/
protected def describe [Describe τ] : Value τ → String
  | unit => Text.tuple []
  | bool b => ParserKit.describe b
  | int n => ParserKit.describe n
  | element t => ParserKit.describe t
  | text s => ParserKit.describe s
  | list items => Text.sequence (describeAll items [])
  | pair a b => Text.tuple [Value.describe a, Value.describe b]
  | span s => ParserKit.describe s
  | function operation arguments =>
    operation.name ++ Text.sequence (describeAll arguments [])
  | illTyped => "Bad"

/-- The descriptions of `items` after those in `described` (last one first). -/
def describeAll [Describe τ] : List (Value τ) → List String → List String
  | [], described => described.reverse
  | v :: items, described => describeAll items (Value.describe v :: described)

end

instance [Describe τ] : Describe (Value τ) where
  describe := Value.describe

/-! ## Integers of 64 bits -/

/-- The integers from `-2^63` up to, and without, `2^63`. -/
def inRange (n : Int) : Bool := -9223372036854775808 ≤ n && n < 9223372036854775808

/-- `n` itself, if it is in range. -/
def checked? (n : Int) : Option Int := if inRange n then some n else none

theorem inRange_iff {n : Int} :
    inRange n = true ↔ -9223372036854775808 ≤ n ∧ n < 9223372036854775808 := by
  simp [inRange]

theorem checked?_of_inRange {n : Int} (h : inRange n = true) : checked? n = some n := if_pos h

theorem checked?_of_not_inRange {n : Int} (h : ¬ inRange n = true) : checked? n = none := if_neg h

/-! ## Values from other types -/

/-- The value of an integer, if there is one. -/
def ofInt? : Option Int → Value τ
  | some n => int n
  | none => illTyped

/-- The value of a text, if there is one. -/
def ofText? : Option String → Value τ
  | some s => text s
  | none => illTyped

/-- A pair of values as one value. -/
def ofPair (v : Value τ × Value τ) : Value τ := pair v.1 v.2

/-- A value and its span as one value. -/
def ofSpanned (v : Value τ × Span) : Value τ := pair v.1 (span v.2)

end Value

end ParserKit

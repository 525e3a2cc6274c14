import ParserKit.Describe

set_option autoImplicit false

/-! # Spans and faults

A span is the pair of positions between which something was read. Its length is the difference of
the two; a span that ends before it starts has no length, and asking for it is a fault: it stops
the computation that asked instead of giving it a value.
-/

namespace ParserKit

/-- A computation that has no value, as opposed to a parse that fails. -/
inductive Fault where
  /-- A natural number was to be subtracted from a smaller one. -/
  | subtractionOverflow
  /-- A grammar refers to a rule that is not defined. -/
  | undefinedRule (name : String)
  deriving DecidableEq

/-- The text of a fault. -/
def Fault.render : Fault → String
  | subtractionOverflow => "attempt to subtract with overflow"
  | undefinedRule name => "undefined rule " ++ describe name

/-- The tokens from position `start` up to, and without, position `stop`. -/
structure Span where
  start : Nat
  stop : Nat
  deriving DecidableEq

namespace Span

/-- The number of tokens in the span. -/
def length (s : Span) : Except Fault Nat :=
  if s.start ≤ s.stop then .ok (s.stop - s.start) else .error .subtractionOverflow

/-- Whether the span ends where it starts. -/
def isEmpty (s : Span) : Bool := s.start == s.stop

instance : Describe Span where
  describe s := Text.record "Span" [("start", describe s.start), ("end", describe s.stop)]

theorem length_of_le {s : Span} (h : s.start ≤ s.stop) : s.length = .ok (s.stop - s.start) := by
  rw [length, if_pos h]

end Span

end ParserKit

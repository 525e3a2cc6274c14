import ParserKit.Parser.Primitive

set_option autoImplicit false

/-! # Refinements

Parsers that run another one and judge what it did: a filter refuses some of its values, a label
replaces its errors, a spanned parser reports where it started and stopped. All of them report the
position of the cursor on which they were run.
-/

namespace ParserKit.Parser

variable {σ τ α : Type} [Cursor σ τ]

/-- Refuses the values of `p` that `accept` does not hold of, with the error text `text`. -/
def filter (p : Parser σ α) (accept : α → Bool) (text : String) : Parser σ α where
  run n c := (p.run n c).andThen fun v rest =>
    if accept v then Run.success v rest
    else Run.failure (.message text (Cursor.position c))
  approx_succ n c := (p.approx_succ n c).andThen fun _ _ => .refl _

/-- Turns every error of `p` into the error that `expected` was not found at the cursor. -/
def label [Describe τ] (p : Parser σ α) (expected : String) : Parser σ α where
  run n c := (p.run n c).recover fun _ =>
    -- The error names the token at `c`, however far `p` had read.
    match Cursor.next? c with
    | some (t, _) => Run.failure (.unexpected expected (describe t) (Cursor.position c))
    | none => Run.failure (.endOfInput expected (Cursor.position c))
  approx_succ n c := (p.approx_succ n c).recover fun _ => .refl _

/-- Adds to the value of `p` the span that it has read. -/
def spanned (p : Parser σ α) : Parser σ (α × Span) where
  run n c := (p.run n c).andThen fun v rest =>
    Run.success (v, ⟨Cursor.position c, Cursor.position rest⟩) rest
  approx_succ n c := (p.approx_succ n c).andThen fun _ _ => .refl _

namespace Below

variable {n : Nat} {p p' : Parser σ α}

theorem filter (hp : Below n p p') (accept : α → Bool) (text : String) :
    Below n (p.filter accept text) (p'.filter accept text) := fun c =>
  (hp c).andThen fun _ _ => .refl _

theorem label [Describe τ] (hp : Below n p p') (expected : String) :
    Below n (p.label expected) (p'.label expected) := fun c => (hp c).recover fun _ => .refl _

theorem spanned (hp : Below n p p') : Below n p.spanned p'.spanned := fun c =>
  (hp c).andThen fun _ _ => .refl _

end Below

end ParserKit.Parser

import ParserKit.Parser.Primitive

set_option autoImplicit false

/-! # Choice

Alternatives are tried in order, and the second one is tried on the cursor on which the first one
failed, however far the first one had read. If both fail the error is that of the second.
-/

namespace ParserKit.Parser

variable {σ α : Type}

/-- The outcome of `p` if that is a success, else the outcome of `q`. -/
def orElse (p q : Parser σ α) : Parser σ α where
  run n c := (p.run n c).recover fun _ => q.run n c
  approx_succ n c := (p.approx_succ n c).recover fun _ => q.approx_succ n c

/-- The outcome of `p` if that is a success, else success with `fallback` in place. -/
def optional (p : Parser σ α) (fallback : α) : Parser σ α := p.orElse (Parser.pure fallback)

theorem Below.orElse {n : Nat} {p p' q q' : Parser σ α} (hp : Below n p p') (hq : Below n q q') :
    Below n (p.orElse q) (p'.orElse q') := fun c => (hp c).recover fun _ => hq c

theorem Below.optional {n : Nat} {p p' : Parser σ α} (hp : Below n p p') (fallback : α) :
    Below n (p.optional fallback) (p'.optional fallback) := hp.orElse (.refl n _)

end ParserKit.Parser

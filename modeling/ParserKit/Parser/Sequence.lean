import ParserKit.Parser.Basic

set_option autoImplicit false

/-! # Sequences

Parsers run one after the other, each on the cursor that the one before it left. The first failure
is the failure of the whole. They differ in what they make of the values.
-/

namespace ParserKit.Parser

variable {σ α β γ : Type}

/-- Applies `f` to the value of `p`. -/
protected def map (f : α → β) (p : Parser σ α) : Parser σ β where
  run n c := (p.run n c).andThen fun v rest => Run.success (f v) rest
  approx_succ n c := (p.approx_succ n c).andThen fun _ _ => .refl _

/-- The value that `p` computes; a fault of the computation stops the run. -/
def evaluate (p : Parser σ (Except Fault α)) : Parser σ α where
  run n c := (p.run n c).andThen fun v rest =>
    match v with
    | .ok a => Run.success a rest
    | .error cause => .error (.fault cause)
  approx_succ n c := (p.approx_succ n c).andThen fun _ _ => .refl _

/-- Applies the value of the first parser, a function, to the value of the second. -/
def apply (f : Parser σ (α → β)) (a : Parser σ α) : Parser σ β where
  run n c :=
    (f.run n c).andThen fun g afterF =>
      (a.run n afterF).andThen fun v rest => Run.success (g v) rest
  approx_succ n c :=
    (f.approx_succ n c).andThen fun _ afterF =>
      (a.approx_succ n afterF).andThen fun _ _ => .refl _

/-- Keeps both values, as a pair. -/
def both (p : Parser σ α) (q : Parser σ β) : Parser σ (α × β) where
  run n c :=
    (p.run n c).andThen fun a afterP =>
      (q.run n afterP).andThen fun b rest => Run.success (a, b) rest
  approx_succ n c :=
    (p.approx_succ n c).andThen fun _ afterP =>
      (q.approx_succ n afterP).andThen fun _ _ => .refl _

/-- Keeps the value of the first parser. -/
def left (p : Parser σ α) (q : Parser σ β) : Parser σ α where
  run n c :=
    (p.run n c).andThen fun a afterP =>
      (q.run n afterP).andThen fun _ rest => Run.success a rest
  approx_succ n c :=
    (p.approx_succ n c).andThen fun _ afterP =>
      (q.approx_succ n afterP).andThen fun _ _ => .refl _

/-- Keeps the value of the second parser. -/
def right (p : Parser σ α) (q : Parser σ β) : Parser σ β where
  run n c := (p.run n c).andThen fun _ afterP => q.run n afterP
  approx_succ n c := (p.approx_succ n c).andThen fun _ afterP => q.approx_succ n afterP

/-- Keeps the value of the parser in the middle. -/
def between (opening : Parser σ α) (body : Parser σ β) (closing : Parser σ γ) : Parser σ β where
  run n c :=
    (opening.run n c).andThen fun _ afterOpening =>
      (body.run n afterOpening).andThen fun b afterBody =>
        (closing.run n afterBody).andThen fun _ rest => Run.success b rest
  approx_succ n c :=
    (opening.approx_succ n c).andThen fun _ afterOpening =>
      (body.approx_succ n afterOpening).andThen fun _ afterBody =>
        (closing.approx_succ n afterBody).andThen fun _ _ => .refl _

/-! ## Sequences respect the order of parsers -/

namespace Below

variable {n : Nat}

theorem map {p p' : Parser σ α} (f : α → β) (hp : Below n p p') :
    Below n (p.map f) (p'.map f) := fun c => (hp c).andThen fun _ _ => .refl _

theorem evaluate {p p' : Parser σ (Except Fault α)} (hp : Below n p p') :
    Below n p.evaluate p'.evaluate := fun c => (hp c).andThen fun _ _ => .refl _

theorem apply {f f' : Parser σ (α → β)} {a a' : Parser σ α} (hf : Below n f f')
    (ha : Below n a a') : Below n (f.apply a) (f'.apply a') := fun c =>
  (hf c).andThen fun _ afterF => (ha afterF).andThen fun _ _ => .refl _

theorem both {p p' : Parser σ α} {q q' : Parser σ β} (hp : Below n p p') (hq : Below n q q') :
    Below n (p.both q) (p'.both q') := fun c =>
  (hp c).andThen fun _ afterP => (hq afterP).andThen fun _ _ => .refl _

theorem left {p p' : Parser σ α} {q q' : Parser σ β} (hp : Below n p p') (hq : Below n q q') :
    Below n (p.left q) (p'.left q') := fun c =>
  (hp c).andThen fun _ afterP => (hq afterP).andThen fun _ _ => .refl _

theorem right {p p' : Parser σ α} {q q' : Parser σ β} (hp : Below n p p') (hq : Below n q q') :
    Below n (p.right q) (p'.right q') := fun c => (hp c).andThen fun _ afterP => hq afterP

theorem between {o o' : Parser σ α} {b b' : Parser σ β} {e e' : Parser σ γ} (ho : Below n o o')
    (hb : Below n b b') (he : Below n e e') :
    Below n (Parser.between o b e) (Parser.between o' b' e') := fun c =>
  (ho c).andThen fun _ afterOpening => (hb afterOpening).andThen fun _ afterBody =>
    (he afterBody).andThen fun _ _ => .refl _

end Below

end ParserKit.Parser

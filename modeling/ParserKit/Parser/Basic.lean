import ParserKit.Run

set_option autoImplicit false

/-! # Parsers

A parser is run on a cursor within a budget. The budget bounds how often each repetition goes round
and how deeply rules call each other, and nothing else: a run that it interrupts says nothing, and
a run that comes back says the same under every larger budget. So a parser *returns* an outcome if
some budget gives it (`Parser.Returns`), and it returns at most one. A parser that returns none
on a cursor would run forever there, or calls a function that has no value.
-/

namespace ParserKit

/-- Runs on cursors of type `σ` that yield values of type `α`. -/
structure Parser (σ α : Type) where
  /-- The run on a cursor within a budget. -/
  run : Nat → σ → Run σ α
  /-- A larger budget can only bring an exhausted run further. -/
  approx_succ : ∀ n c, Run.Approx (run n c) (run (n + 1) c)

namespace Parser

variable {σ α : Type}

/-- Some budget brings `p` from `c` to the outcome `o`. -/
def Returns (p : Parser σ α) (c : σ) (o : Outcome σ α) : Prop := ∃ n, p.run n c = .ok o

theorem approx_of_le (p : Parser σ α) {n m : Nat} (h : n ≤ m) (c : σ) :
    Run.Approx (p.run n c) (p.run m c) := by
  induction h with
  | refl => exact Run.Approx.refl _
  | step _ ih => exact ih.trans (p.approx_succ _ c)

/-- An outcome within a budget is the outcome within every larger one. -/
theorem run_of_le (p : Parser σ α) {n m : Nat} {c : σ} {o : Outcome σ α} (h : n ≤ m)
    (hn : p.run n c = .ok o) : p.run m c = .ok o :=
  (p.approx_of_le h c).eq_ok hn

/-- **A parser returns at most one outcome.** -/
theorem Returns.unique {p : Parser σ α} {c : σ} {o o' : Outcome σ α} (h : p.Returns c o)
    (h' : p.Returns c o') : o = o' := by
  obtain ⟨n, hn⟩ := h
  obtain ⟨m, hm⟩ := h'
  have hn' := p.run_of_le (Nat.le_max_left n m) hn
  have hm' := p.run_of_le (Nat.le_max_right n m) hm
  rw [hn'] at hm'
  exact Except.ok.inj hm'

/-! ## The order of parsers within a budget -/

/-- Within the budget `n`, every run of `p` that is final is a run of `q`. -/
def Below (n : Nat) (p q : Parser σ α) : Prop := ∀ c, Run.Approx (p.run n c) (q.run n c)

theorem Below.refl (n : Nat) (p : Parser σ α) : Below n p p := fun _ => Run.Approx.refl _

theorem Below.trans {n : Nat} {p q r : Parser σ α} (hpq : Below n p q) (hqr : Below n q r) :
    Below n p r := fun c => (hpq c).trans (hqr c)

/-! ## Parsers from functions -/

/-- The parser that a function from cursors to outcomes is. It needs no budget. -/
def ofFunction (f : σ → Outcome σ α) : Parser σ α where
  run _ c := .ok (f c)
  approx_succ _ _ := Run.Approx.refl _

/-- The parser that never returns. -/
def stuck : Parser σ α where
  run _ _ := Run.exhausted
  approx_succ _ _ := Run.Approx.refl _

/-- The parser that stops everything with a fault. -/
def abort (cause : Fault) : Parser σ α where
  run _ _ := .error (.fault cause)
  approx_succ _ _ := Run.Approx.refl _

/-- The parser `p ()`, which is built only when it is run. -/
def delay (p : Unit → Parser σ α) : Parser σ α where
  run n c := (p ()).run n c
  approx_succ n c := (p ()).approx_succ n c

@[simp] theorem returns_ofFunction {f : σ → Outcome σ α} {c : σ} {o : Outcome σ α} :
    (ofFunction f).Returns c o ↔ f c = o := by
  simp [Returns, ofFunction]

theorem Below.stuck (n : Nat) (p : Parser σ α) : Below n Parser.stuck p := fun _ => Or.inl rfl

theorem Below.delay {n : Nat} {p q : Unit → Parser σ α} (h : Below n (p ()) (q ())) :
    Below n (Parser.delay p) (Parser.delay q) := h

end Parser

end ParserKit

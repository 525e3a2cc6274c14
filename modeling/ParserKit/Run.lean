import ParserKit.ParseError
import ParserKit.Span

set_option autoImplicit false

/-! # Runs

A parser that comes back from a cursor has an *outcome*: success with a value and the cursor behind
what it read, or failure with one error. A *run* is an attempt to get there within a budget. It
either returns an outcome or is interrupted, because the budget was too small or because a function
that it called has no value. An interruption is not a failure: no alternative is tried after it.

Runs are ordered by what is known of them (`Run.Approx`): an exhausted run may still become
anything, every other run is final. `Run.andThen` and `Run.recover`, from which all combinators
are made, respect that order.
-/

namespace ParserKit

/-- What a parser that comes back has to say. -/
inductive Outcome (σ α : Type) where
  /-- The parser accepted, with this value, and stopped at this cursor. -/
  | success (value : α) (rest : σ)
  /-- The parser refused. -/
  | failure (error : ParseError)

/-- Whether an outcome is a success. -/
def Outcome.isSuccess {σ α : Type} : Outcome σ α → Bool
  | success _ _ => true
  | failure _ => false

/-- Why a run did not come back. -/
inductive Interruption where
  /-- The budget was too small; a larger one may do. -/
  | exhausted
  /-- A function without a value was called; no budget will do. -/
  | fault (cause : Fault)
  deriving DecidableEq

/-- An outcome, or the reason why there is none. -/
abbrev Run (σ α : Type) : Type := Except Interruption (Outcome σ α)

namespace Run

variable {σ α β : Type}

/-- The run that stops before it starts. -/
def exhausted : Run σ α := .error .exhausted

/-- The run that succeeds. -/
def success (value : α) (rest : σ) : Run σ α := .ok (.success value rest)

/-- The run that fails. -/
def failure (error : ParseError) : Run σ α := .ok (.failure error)

/-- Goes on from a success; a failure or an interruption stands. -/
def andThen (x : Run σ α) (onSuccess : α → σ → Run σ β) : Run σ β :=
  match x with
  | .ok (.success value rest) => onSuccess value rest
  | .ok (.failure error) => .ok (.failure error)
  | .error interruption => .error interruption

/-- Goes on from a failure; a success or an interruption stands. -/
def recover (x : Run σ α) (onFailure : ParseError → Run σ α) : Run σ α :=
  match x with
  | .ok (.success value rest) => .ok (.success value rest)
  | .ok (.failure error) => onFailure error
  | .error interruption => .error interruption

/-! ## The order of runs -/

/-- `x` is exhausted, or final and equal to `y`. -/
def Approx (x y : Run σ α) : Prop := x = exhausted ∨ x = y

namespace Approx

theorem refl (x : Run σ α) : Approx x x := Or.inr rfl

theorem trans {x y z : Run σ α} (hxy : Approx x y) (hyz : Approx y z) : Approx x z := by
  rcases hxy with h | rfl
  · exact Or.inl h
  · exact hyz

/-- An outcome that is known stays. -/
theorem eq_ok {x y : Run σ α} {o : Outcome σ α} (h : Approx x y) (hx : x = .ok o) : y = .ok o := by
  rcases h with h | rfl
  · rw [hx] at h
    cases h
  · exact hx

theorem andThen {x y : Run σ α} {f g : α → σ → Run σ β} (h : Approx x y)
    (hfg : ∀ value rest, Approx (f value rest) (g value rest)) :
    Approx (x.andThen f) (y.andThen g) := by
  rcases h with rfl | rfl
  · exact Or.inl rfl
  · -- `x` is final, and only a success hands on to the functions.
    match x with
    | .ok (.success value rest) => exact hfg value rest
    | .ok (.failure error) => exact refl _
    | .error interruption => exact refl _

theorem recover {x y : Run σ α} {f g : ParseError → Run σ α} (h : Approx x y)
    (hfg : ∀ error, Approx (f error) (g error)) : Approx (x.recover f) (y.recover g) := by
  rcases h with rfl | rfl
  · exact Or.inl rfl
  · match x with
    | .ok (.success value rest) => exact refl _
    | .ok (.failure error) => exact hfg error
    | .error interruption => exact refl _

end Approx

/-! ## Outcomes of composite runs -/

theorem andThen_eq_ok {x : Run σ α} {f : α → σ → Run σ β} {o : Outcome σ β} :
    x.andThen f = .ok o ↔
      (∃ value rest, x = .ok (.success value rest) ∧ f value rest = .ok o)
        ∨ ∃ error, x = .ok (.failure error) ∧ o = .failure error := by
  match x with
  | .ok (.success value rest) =>
    constructor
    · exact fun h => Or.inl ⟨value, rest, rfl, h⟩
    · rintro (⟨_, _, ⟨⟩, h⟩ | ⟨_, ⟨⟩, _⟩)
      exact h
  | .ok (.failure error) => simp [andThen, eq_comm]
  | .error interruption => simp [andThen]

theorem recover_eq_ok {x : Run σ α} {f : ParseError → Run σ α} {o : Outcome σ α} :
    x.recover f = .ok o ↔
      (∃ value rest, x = .ok (.success value rest) ∧ o = .success value rest)
        ∨ ∃ error, x = .ok (.failure error) ∧ f error = .ok o := by
  match x with
  | .ok (.success value rest) =>
    constructor
    · exact fun h => Or.inl ⟨value, rest, rfl, (Except.ok.inj h).symm⟩
    · rintro (⟨_, _, ⟨⟩, rfl⟩ | ⟨_, ⟨⟩, _⟩)
      rfl
  | .ok (.failure error) => simp [recover]
  | .error interruption => simp [recover]

end Run

end ParserKit

set_option autoImplicit false

/-! # Cursors

A cursor is a place in an input. It is never changed: reading from it gives the token at that place
and the cursor behind it, so that a reader can go back by using the earlier cursor again. Positions
count tokens from the start of the source.

`Cursor` is all that parsers know of their input. `SourceCursor` adds what callers know: how a
cursor is made from a source and what it shows of it. `LawfulCursor` says what every cursor owes to
the list of tokens that are still to come.
-/

namespace ParserKit

/-- Places of type `σ` in an input of tokens of type `τ`. -/
class Cursor (σ : Type) (τ : outParam Type) where
  /-- The token at the cursor and the cursor behind it, or nothing at the end of the input. -/
  next? : σ → Option (τ × σ)
  /-- The number of tokens before the cursor. -/
  position : σ → Nat

namespace Cursor

variable {σ τ : Type} [Cursor σ τ]

/-- Whether no token is left. -/
def isAtEnd (c : σ) : Bool := (next? c).isNone

/-- The cursor behind the next `n` tokens, or at the end of the input if fewer are left. -/
def advance : Nat → σ → σ
  | 0, c => c
  | n + 1, c =>
    match next? c with
    | some (_, rest) => advance n rest
    | none => c

end Cursor

/-- The ways to place a cursor on a source without reading from it. -/
inductive Placement where
  /-- At the first token. -/
  | start
  /-- At a given position, which may lie behind the end. -/
  | at (position : Nat)
  /-- Behind the last token. -/
  | finish

/-- Cursors over sources of type `φ`. -/
class SourceCursor (σ : Type) (τ φ : outParam Type) extends Cursor σ τ where
  /-- The cursor at the start of a source. -/
  start : φ → σ
  /-- The whole source, read or not. -/
  source : σ → φ
  /-- The part of the source that is still to be read. -/
  remaining : σ → φ
  /-- The number of tokens of the whole source. -/
  sourceLength : σ → Nat
  /-- The cursor that a jump to the `n`-th position of a source leads to. -/
  seek : φ → Nat → σ
  /-- The cursor with the given placement, where this kind of cursor has one. -/
  place? : Placement → φ → Option σ

/-- Cursors that agree with a list: `upcoming c` holds the tokens from `c` to the end of the input,
and reading takes its head and moves the position by one. -/
class LawfulCursor (σ : Type) (τ : outParam Type) [Cursor σ τ] where
  /-- The tokens still to be read. -/
  upcoming : σ → List τ
  /-- Nothing can be read exactly if no token is left. -/
  next?_eq_none_iff : ∀ c : σ, Cursor.next? c = none ↔ upcoming c = []
  /-- Reading gives the first of the tokens that are left and leaves the others. -/
  upcoming_eq_cons : ∀ {c rest : σ} {t : τ},
    Cursor.next? c = some (t, rest) → upcoming c = t :: upcoming rest
  /-- Reading moves the position by one. -/
  position_next : ∀ {c rest : σ} {t : τ},
    Cursor.next? c = some (t, rest) → Cursor.position rest = Cursor.position c + 1

end ParserKit

import ParserKit.Cursor
import ParserKit.Describe

set_option autoImplicit false

/-! # Token cursors

A cursor over an array of tokens. It is either `valid`, with an index into the array, or
`endOfInput`. Reading the last token leads to `endOfInput`, and so does starting on an empty array.
A `valid` cursor may also be made with an index behind the last token; it then behaves like
`endOfInput`, and its position is the number of tokens. Two token cursors are equal if their
positions and the tokens that they have left are.
-/

namespace ParserKit

/-- A place in an array of tokens. -/
inductive TokenCursor (τ : Type) where
  /-- At the given index, which may lie behind the last token. -/
  | valid (data : Array τ) (index : Nat)
  /-- Behind the last token. -/
  | endOfInput (data : Array τ)

namespace TokenCursor

variable {τ : Type}

/-- The cursor at the first token of an array. -/
def start (data : Array τ) : TokenCursor τ :=
  if data.isEmpty then endOfInput data else valid data 0

/-- All tokens, read or not. -/
def source : TokenCursor τ → Array τ
  | valid data _ => data
  | endOfInput data => data

/-- The number of tokens before the cursor. -/
def position : TokenCursor τ → Nat
  | valid data index => min index data.size
  | endOfInput data => data.size

/-- The tokens from the cursor to the end of its source. -/
def remaining : TokenCursor τ → Array τ
  | valid data index => data.extract index data.size
  | endOfInput _ => #[]

/-- The token at the cursor and the cursor behind it. -/
def next? : TokenCursor τ → Option (τ × TokenCursor τ)
  | valid data index =>
    match data[index]? with
    -- Behind the last token there is no index.
    | some t => some (t, if index + 1 < data.size then valid data (index + 1) else endOfInput data)
    | none => none
  | endOfInput _ => none

instance : Cursor (TokenCursor τ) τ where
  next? := next?
  position := position

instance : SourceCursor (TokenCursor τ) τ (Array τ) where
  start := start
  source := source
  remaining := remaining
  sourceLength c := c.source.size
  seek := valid
  place?
    | .start, data => some (start data)
    | .at index, data => some (valid data index)
    | .finish, data => some (endOfInput data)

@[simp] theorem toList_remaining_valid (data : Array τ) (index : Nat) :
    (valid data index).remaining.toList = data.toList.drop index := by
  simp only [remaining, Array.toList_extract, List.extract_eq_take_drop]
  exact List.take_of_length_le (by simp)

theorem next?_valid_of_lt {data : Array τ} {index : Nat} (h : index < data.size) :
    (valid data index).next?
      = some (data[index],
          if index + 1 < data.size then valid data (index + 1) else endOfInput data) := by
  simp [next?, h]

theorem next?_valid_of_ge {data : Array τ} {index : Nat} (h : data.size ≤ index) :
    (valid data index).next? = none := by
  simp [next?, Nat.not_lt.mpr h]

/-- What is read is the token at the index of a `valid` cursor, and the cursor behind it is one
further or at the end. -/
theorem next?_eq_some {c rest : TokenCursor τ} {t : τ} (h : c.next? = some (t, rest)) :
    ∃ (data : Array τ) (index : Nat) (hi : index < data.size), c = valid data index
      ∧ data[index] = t
      ∧ (if index + 1 < data.size then valid data (index + 1) else endOfInput data) = rest := by
  cases c with
  | endOfInput data => simp [next?] at h
  | valid data index =>
      rcases Nat.lt_or_ge index data.size with hi | hi
      · rw [next?_valid_of_lt hi, Option.some.injEq, Prod.mk.injEq] at h
        exact ⟨data, index, hi, rfl, h.1, h.2⟩
      · simp [next?_valid_of_ge hi] at h

instance : LawfulCursor (TokenCursor τ) τ where
  upcoming c := c.remaining.toList
  next?_eq_none_iff
    | valid data index => by
      show (valid data index).next? = none ↔ _
      rcases Nat.lt_or_ge index data.size with h | h
      · simp [next?_valid_of_lt h]
        omega
      · simp [next?_valid_of_ge h, h]
    | endOfInput data => by
      show (endOfInput data).next? = none ↔ _
      simp [next?, remaining]
  upcoming_eq_cons {c rest t} h := by
    obtain ⟨data, index, hi, rfl, rfl, rfl⟩ := next?_eq_some h
    rw [toList_remaining_valid, List.drop_eq_getElem_cons (by simpa using hi)]
    split
    · simp
    · simp [remaining]
      omega
  position_next {c rest t} h := by
    show rest.position = c.position + 1
    obtain ⟨data, index, hi, rfl, -, rfl⟩ := next?_eq_some h
    split <;> simp only [position] <;> omega

instance [BEq τ] : BEq (TokenCursor τ) where
  beq a b := a.position == b.position && a.remaining == b.remaining

instance [Describe τ] : Describe (TokenCursor τ) where
  describe
    | valid data index =>
        Text.record "Valid" [("data", describe data), ("position", describe index)]
    | endOfInput data => Text.record "EndOfInput" [("data", describe data)]

end TokenCursor

end ParserKit

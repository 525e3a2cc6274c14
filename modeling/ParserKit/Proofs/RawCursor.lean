import ParserKit.Proofs.CursorStates

set_option autoImplicit false

/-! # Text cursors as plain values

That the offset of a text cursor lies between two characters, and that its position counts those
before it, is part of its type. Here a cursor is three values of which nothing is known
(`RawTextCursor`): what is left is cut off at the offset, wherever that is, and a reading adds to
both numbers as machine words. So two things can go wrong: there may be no boundary between
characters at the offset, and a sum may be too large.

On the values of a text cursor neither of them does, as long as the length of the text in bytes is a
number of a machine word: each operation gives the values of what it gives on text cursors
(`RawTextCursor.next?_raw`). The start of a text has the values of a text cursor, and so has every
cursor that reading on from there leads to (`RawTextCursor.simulates_textCursor`).
-/

namespace ParserKit

/-- A text, a place in it as a number of bytes, and the place as a number of characters. -/
structure RawTextCursor where
  source : String
  offset : Nat
  position : Nat

/-- The values of a text cursor. -/
def TextCursor.raw (c : TextCursor) : RawTextCursor := ⟨c.source, c.byteOffset, c.position⟩

namespace RawTextCursor

/-! ## Reading -/

/-- Why an operation has no result. -/
inductive Failure where
  /-- A text was to be cut where there is no boundary between characters. -/
  | noBoundary
  /-- A sum is too large for a machine word. -/
  | overflow
  deriving DecidableEq

/-- The cursor at the start of a text. -/
def start (source : String) : RawTextCursor := ⟨source, 0, 0⟩

/-- The text from the offset to the end of the source. -/
def remaining (c : RawTextCursor) : Except Failure String :=
  if h : (String.Pos.Raw.mk c.offset).IsValid c.source then
    .ok (c.source.sliceFrom (c.source.pos _ h)).copy
  else .error .noBoundary

/-- The sum of two machine words. -/
def wordSum (m n : Nat) : Except Failure Nat :=
  if m + n < UInt64.size then .ok (m + n) else .error .overflow

/-- The first character of what is left, and the cursor behind it. -/
def next? (c : RawTextCursor) : Except Failure (Option (Char × RawTextCursor)) := do
  match (← c.remaining).toList with
  | [] => return none
  | ch :: _ =>
    let offset ← wordSum c.offset ch.utf8Size
    let position ← wordSum c.position 1
    return some (ch, { c with offset, position })

/-- The cursor behind the next `n` characters, or behind all that are left if these are fewer. -/
def advance : Nat → RawTextCursor → Except Failure RawTextCursor
  | 0, c => return c
  | n + 1, c => do
    match ← c.next? with
    | some (_, rest) => rest.advance n
    | none => return c

/-- Whether two cursors have the same position and the same text left. -/
def equal (c d : RawTextCursor) : Except Failure Bool := do
  if c.position = d.position then return (← c.remaining) == (← d.remaining) else return false

/-! ## The values of text cursors -/

theorem raw_start (s : String) : (TextCursor.start s).raw = start s := rfl

variable (c d : TextCursor)

/-- A text cursor stands between two characters. -/
theorem remaining_raw : c.raw.remaining = .ok c.remaining := dif_pos c.isValid_byteOffset

/-- In the middle of a character, the values are those of no text cursor. -/
example : (RawTextCursor.mk "é" 1 0).remaining = .error .noBoundary := by decide

theorem wordSum_of_le {m n size : Nat} (h : m + n ≤ size) (hsize : size < UInt64.size) :
    wordSum m n = .ok (m + n) := if_pos (Nat.lt_of_le_of_lt h hsize)

/-- A reading of the values gives the character that the text cursor reads and the values of the
cursor behind it, or nothing at the end of the text. -/
theorem next?_raw (hsize : c.source.utf8ByteSize < UInt64.size) :
    c.raw.next? = .ok ((Cursor.next? c).map fun read => (read.1, read.2.raw)) := by
  rw [next?, remaining_raw]
  cases h : Cursor.next? c with
  | none =>
      have hnone : c.remaining.toList = [] := (LawfulCursor.next?_eq_none_iff c).mp h
      simp only [bind, Except.bind, hnone]
      rfl
  | some read =>
      obtain ⟨ch, rest⟩ := read
      have hcons : c.remaining.toList = ch :: rest.remaining.toList :=
        LawfulCursor.upcoming_eq_cons (σ := TextCursor) h
      obtain ⟨hoffset, hcount⟩ := TextCursor.sums_le h
      have hbytes : wordSum c.byteOffset ch.utf8Size = .ok rest.byteOffset := by
        rw [TextCursor.byteOffset_next h]
        exact wordSum_of_le hoffset hsize
      have hchars : wordSum c.position 1 = .ok rest.position := by
        have hposition : rest.position = c.position + 1 := LawfulCursor.position_next h
        rw [hposition]
        exact wordSum_of_le hcount hsize
      have hsource : rest.source = c.source := LawfulSource.source_next h
      simp only [bind, Except.bind, hcons, hbytes, hchars, Option.map_some, TextCursor.raw, hsource]
      rfl

theorem advance_raw (n : Nat) (hsize : c.source.utf8ByteSize < UInt64.size) :
    c.raw.advance n = .ok (Cursor.advance n c).raw := by
  induction n generalizing c with
  | zero => rfl
  | succ n ih =>
      rw [advance, next?_raw c hsize, Cursor.advance]
      cases h : Cursor.next? c with
      | none => rfl
      | some read =>
          have hsource : read.2.source = c.source := LawfulSource.source_next h
          exact ih read.2 (by rwa [hsource])

/-- A comparison of the values is that of the text cursors. -/
theorem equal_raw : c.raw.equal d.raw = .ok (c == d) := by
  rw [equal, remaining_raw, remaining_raw]
  show (if c.position = d.position then _ else _) = Except.ok (c.position == d.position && _)
  split
  case isTrue h =>
    rw [beq_iff_eq.mpr h]
    rfl
  case isFalse h =>
    rw [beq_eq_false_iff_ne.mpr h]
    rfl

/-- **The plain values do what the text cursor does.** If the length of a text in bytes is a number
of a machine word, its start can be read on from as often as one likes, and the values are then
those of the text cursor that as many readings lead to. What is left can be cut off there, the next
reading is that of the text cursor, and so is every comparison. -/
theorem simulates_textCursor (s : String) (n : Nat) (hsize : s.utf8ByteSize < UInt64.size) :
    let c := Cursor.advance n (TextCursor.start s)
    (start s).advance n = .ok c.raw
    ∧ c.raw.remaining = .ok c.remaining
    ∧ c.raw.next? = .ok ((Cursor.next? c).map fun read => (read.1, read.2.raw))
    ∧ ∀ d : TextCursor, c.raw.equal d.raw = .ok (c == d) := by
  intro c
  have hsource : c.source = s := source_advance_start (σ := TextCursor) s n
  rw [← raw_start]
  exact ⟨advance_raw _ n hsize, remaining_raw c, next?_raw c (by rwa [hsource]), equal_raw c⟩

end RawTextCursor

end ParserKit

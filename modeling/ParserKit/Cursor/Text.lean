import ParserKit.Cursor
import ParserKit.Describe

set_option autoImplicit false

/-! # Text cursors

A cursor over the characters of a text. It keeps two measures of what lies before it: the offset in
bytes, which finds the next character in constant time, and the position in characters, which is
what parsers and errors speak of. That the two belong together is part of the type. Two text
cursors are equal if their positions and the texts that they have left are: neither the offset nor
the characters already read matter.
-/

namespace ParserKit

/-- A place between two characters of a text. -/
structure TextCursor where
  /-- The whole text. -/
  source : String
  /-- The place as a byte offset on a character boundary. -/
  offset : source.Pos
  /-- The place as a number of characters. -/
  position : Nat
  /-- The position counts the characters before the offset. -/
  position_eq : position = (source.sliceTo offset).copy.length

namespace TextCursor

/-- The cursor at the start of a text. -/
def start (source : String) : TextCursor where
  source := source
  offset := source.startPos
  position := 0
  position_eq := by
    have h := String.copy_sliceTo_eq_iff_exists_splits.mpr ⟨_, String.splits_startPos source⟩
    simp [h]

/-- The text from the cursor to the end of its source. -/
def remaining (c : TextCursor) : String := (c.source.sliceFrom c.offset).copy

/-- The position counts one character more behind the next one. -/
theorem position_succ (c : TextCursor) (h : c.offset ≠ c.source.endPos) :
    c.position + 1 = (c.source.sliceTo (c.offset.next h)).copy.length := by
  have hs := (c.offset.splits_next h).copy_sliceTo_eq
  rw [hs, String.length_append, String.length_singleton, ← c.position_eq]

/-- The character at the cursor and the cursor behind it. -/
def next? (c : TextCursor) : Option (Char × TextCursor) :=
  if h : c.offset = c.source.endPos then none
  else
    some (c.offset.get h,
      { source := c.source
        offset := c.offset.next h
        position := c.position + 1
        position_eq := c.position_succ h })

/-- What is read is the character at the offset, and the cursor behind it is one further. -/
theorem next?_eq_some {c rest : TextCursor} {ch : Char} (h : c.next? = some (ch, rest)) :
    ∃ he : c.offset ≠ c.source.endPos, c.offset.get he = ch
      ∧ { source := c.source
          offset := c.offset.next he
          position := c.position + 1
          position_eq := c.position_succ he } = rest := by
  by_cases he : c.offset = c.source.endPos
  · simp [next?, he] at h
  · simp only [next?, he, dite_false, Option.some.injEq, Prod.mk.injEq] at h
    exact ⟨he, h.1, h.2⟩

instance : Cursor TextCursor Char where
  next? := next?
  position := position

instance : SourceCursor TextCursor Char String where
  start := start
  source := source
  remaining := remaining
  sourceLength c := c.source.length
  seek text n := Cursor.advance n (start text)
  place?
    | .start, text => some (start text)
    | _, _ => none

/-- What is left at a cursor is its character followed by what is left behind it. -/
theorem toList_remaining (c : TextCursor) (h : c.offset ≠ c.source.endPos) :
    c.remaining.toList
      = c.offset.get h :: (c.source.sliceFrom (c.offset.next h)).copy.toList := by
  rw [remaining, (c.offset.splits_next_right h).copy_sliceFrom_eq]
  simp

instance : LawfulCursor TextCursor Char where
  upcoming c := c.remaining.toList
  next?_eq_none_iff c := by
    show c.next? = none ↔ _
    by_cases h : c.offset = c.source.endPos
    · have hr : c.remaining = "" := by
        rw [remaining, h, (String.splits_endPos c.source).copy_sliceFrom_eq]
      simp [next?, h, hr]
    · simp [next?, h, toList_remaining c h]
  upcoming_eq_cons {c rest t} h := by
    obtain ⟨he, rfl, rfl⟩ := next?_eq_some h
    exact toList_remaining c he
  position_next {c rest t} h := by
    obtain ⟨he, -, rfl⟩ := next?_eq_some h
    rfl

instance : BEq TextCursor where
  beq a b := a.position == b.position && a.remaining == b.remaining

instance : Describe TextCursor where
  describe c :=
    Text.record "CharCursor"
      [ ("source", describe c.source),
        ("offset", describe c.offset.offset.byteIdx),
        ("position", describe c.position) ]

end TextCursor

end ParserKit

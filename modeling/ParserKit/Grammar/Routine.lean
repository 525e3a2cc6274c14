import ParserKit.Cursor
import ParserKit.Run
import ParserKit.Value.Call

set_option autoImplicit false

/-! # Routines

Parsers that are not made of combinators but written as functions on cursors. A written grammar can
name these. Some of them do what no combinator does: they go back to the start of the source, or
jump to any place of it.
-/

namespace ParserKit

/-- A function on cursors that a grammar can name. -/
inductive Routine where
  /-- The next two tokens as a pair. -/
  | pair
  /-- Fails at the cursor. -/
  | fail (text : String)
  /-- Fails and reports a given position instead of the cursor's. -/
  | failAt (text : String) (position : Nat)
  /-- The integer that the next token stands for. -/
  | number
  /-- Goes back to the start of the source. -/
  | rewind
  /-- Goes to the given position of the source. -/
  | jump (position : Nat)
  /-- The next token, without taking it. -/
  | peek
  /-- The position of the cursor. -/
  | position
  /-- Whether the cursor is at the end of the input. -/
  | atEnd

namespace Routine

variable {σ τ φ : Type} [SourceCursor σ τ φ] [Token τ]

open Cursor in
/-- The outcome of a routine on a cursor. -/
def run : Routine → σ → Outcome σ (Value τ)
  | pair, c =>
    match next? c with
    | none => .failure (.message "missing first" (Cursor.position c))
    | some (a, c') =>
      match next? c' with
      | none => .failure (.message "missing second" (Cursor.position c'))
      | some (b, c'') => .success (.pair (.element a) (.element b)) c''
  | fail text, c => .failure (.message text (Cursor.position c))
  | failAt text n, _ => .failure (.message text n)
  | number, c =>
    match next? c with
    | none => .failure (.endOfInput "number" (Cursor.position c))
    | some (t, rest) =>
      match Token.asInt? t with
      | some n => .success (.int n) rest
      | none => .failure (.unexpected "number" (describe t) (Cursor.position c))
  | rewind, c => .success .unit (SourceCursor.start (SourceCursor.source c))
  | jump n, c => .success .unit (SourceCursor.seek (SourceCursor.source c) n)
  | peek, c =>
    match next? c with
    | some (t, _) => .success (.element t) c
    | none => .success .unit c
  | position, c => .success (.int (Cursor.position c)) c
  | atEnd, c => .success (.bool (isAtEnd c)) c

end Routine

/-- What the record of a parser made from a function shows: the function itself has no text. -/
def Routine.fields : List (String × String) := [("function", describe "<function>")]

/-- The description of a parser made from a function, on one line. -/
def Routine.summary : String := Text.record "FromFn" Routine.fields

/-- The description of a parser made from a function, with one field a line. -/
def Routine.summaryBlock : String := Text.recordBlock "FromFn" Routine.fields

end ParserKit

set_option autoImplicit false

/-! # Layout of composite values

How the text of a composite value is put together from the texts of its parts: a sequence in
brackets, a tuple in parentheses, a constructor with its argument, and a record with named fields,
either on one line or with one field a line.
-/

namespace ParserKit.Text

/-- The parts with a comma and a blank between neighbours. -/
def commaSeparated (parts : List String) : String := String.intercalate ", " parts

/-- A sequence: its parts in square brackets. -/
def sequence (parts : List String) : String := "[" ++ commaSeparated parts ++ "]"

/-- A tuple: its parts in parentheses. -/
def tuple (parts : List String) : String := "(" ++ commaSeparated parts ++ ")"

/-- A constructor applied to arguments. -/
def application (name : String) (arguments : List String) : String := name ++ tuple arguments

/-- A field of a record: its name and its text. -/
def field (entry : String × String) : String := entry.1 ++ ": " ++ entry.2

/-- A text between braces. -/
def braced (inner : String) : String := String.singleton '{' ++ inner ++ String.singleton '}'

/-- A record on one line. -/
def record (name : String) (fields : List (String × String)) : String :=
  name ++ " " ++ braced (" " ++ commaSeparated (fields.map field) ++ " ")

/-- A record with one field a line, each indented by four blanks and followed by a comma. -/
def recordBlock (name : String) (fields : List (String × String)) : String :=
  let lines := fields.map fun entry => "    " ++ field entry ++ ",\n"
  name ++ " " ++ braced ("\n" ++ String.join lines)

end ParserKit.Text

import ParserKit.Text.Quoted
import ParserKit.Text.Layout

set_option autoImplicit false

/-! # Descriptions

Every value that an error, a check or a session can mention has one description, the text by which
it is named there. Numbers are decimal, characters and texts are quoted, sequences are bracketed.
-/

namespace ParserKit

/-- Types whose values have a description. -/
class Describe (α : Type) where
  /-- The text that names a value. -/
  describe : α → String

export Describe (describe)

instance : Describe Nat where
  describe n := Nat.repr n

/-- The decimal text of an integer: a minus sign for a negative one, then the digits of its
magnitude. -/
def describeInt : Int → String
  | .ofNat n => Nat.repr n
  | .negSucc n => "-" ++ Nat.repr (n + 1)

instance : Describe Int where
  describe := describeInt

instance : Describe UInt8 where
  describe b := Nat.repr b.toNat

instance : Describe Bool where
  describe b := if b then "true" else "false"

instance : Describe Char where
  describe := Text.quoteChar

instance : Describe String where
  describe := Text.quoteText

instance {α : Type} [Describe α] : Describe (List α) where
  describe items := Text.sequence (items.map describe)

instance {α : Type} [Describe α] : Describe (Array α) where
  describe items := describe items.toList

end ParserKit

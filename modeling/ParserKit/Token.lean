import ParserKit.Lexeme

set_option autoImplicit false

/-! # Tokens

What a grammar can ask of a token besides its description: its integer, its character, and whether
it belongs to a named class. Characters, integers, bytes, texts and lexemes are tokens.
-/

namespace ParserKit

/-- The classes of tokens that a condition can name. -/
inductive TokenClass where
  | digit
  | alpha
  | alnum
  | space
  | ascii
  | even
  | odd
  | negative
  | empty
  | number
  | identifier
  | unit
  deriving DecidableEq

/-- The class with the given name, if there is one. -/
def TokenClass.ofName? : String → Option TokenClass
  | "digit" => some digit
  | "alpha" => some alpha
  | "alnum" => some alnum
  | "space" => some space
  | "ascii" => some ascii
  | "even" => some even
  | "odd" => some odd
  | "neg" => some negative
  | "empty" => some empty
  | "num" => some number
  | "ident" => some identifier
  | "unit" => some unit
  | _ => none

/-- Types whose values a grammar can read as tokens. -/
class Token (τ : Type) extends Describe τ where
  /-- The integer that a token stands for. -/
  asInt? : τ → Option Int
  /-- The character that a token stands for. -/
  asChar? : τ → Option Char
  /-- Whether a token belongs to a class. -/
  hasClass : TokenClass → τ → Bool

/-- Whether a character belongs to a class; letters and digits are the ASCII ones. -/
def charHasClass (c : Char) : TokenClass → Bool
  | .digit => c.isDigit
  | .alpha => c.isAlpha
  | .alnum => c.isAlphanum
  | .space => c == ' ' || c == '\t' || c == '\n' || c == '\x0c' || c == '\r'
  | .ascii => c.toNat < 128
  | _ => false

/-- Whether an integer belongs to a class. -/
def intHasClass (n : Int) : TokenClass → Bool
  | .even => n % 2 == 0
  | .odd => n % 2 != 0
  | .negative => n < 0
  | _ => false

instance : Token Char where
  asInt? _ := none
  asChar? c := some c
  hasClass k c := charHasClass c k

instance : Token Int where
  asInt? n := some n
  asChar? _ := none
  hasClass k n := intHasClass n k

/-- A byte has the classes of the integer that it is and of the character with that code. -/
instance : Token UInt8 where
  asInt? b := some b.toNat
  asChar? _ := none
  hasClass k b := intHasClass b.toNat k || charHasClass (Char.ofNat b.toNat) k

instance : Token String where
  asInt? _ := none
  asChar? _ := none
  hasClass k s := k == .empty && s.isEmpty

instance : Token Lexeme where
  asInt?
    | .number value => some value
    | _ => none
  asChar?
    | .plus => some '+'
    | .minus => some '-'
    | .times => some '*'
    | _ => none
  hasClass
    | .number, .number _ => true
    | .identifier, .identifier _ => true
    | .number, _ | .identifier, _ => false
    | .unit, .number _ | .unit, .identifier _ => false
    | .unit, _ => true
    | _, _ => false

end ParserKit

import ParserKit.Describe

set_option autoImplicit false

/-! # Lexemes of arithmetic

A small token type for expressions over integers and names, as a lexer would hand them to a
parser.
-/

namespace ParserKit

/-- A token of an arithmetic expression. -/
inductive Lexeme where
  | plus
  | minus
  | times
  | leftParen
  | rightParen
  | comma
  | number (value : Int)
  | identifier (name : String)
  deriving DecidableEq

namespace Lexeme

/-- The description of a lexeme: the name of its kind, with its value if it has one. -/
protected def describe : Lexeme → String
  | plus => "Plus"
  | minus => "Minus"
  | times => "Times"
  | leftParen => "LParen"
  | rightParen => "RParen"
  | comma => "Comma"
  | number value => Text.application "Num" [ParserKit.describe value]
  | identifier name => Text.application "Ident" [ParserKit.describe name]

instance : Describe Lexeme where
  describe := Lexeme.describe

/-- The lexemes that carry no value, by name. -/
def ofName? : String → Option Lexeme
  | "Plus" => some plus
  | "Minus" => some minus
  | "Times" => some times
  | "LParen" => some leftParen
  | "RParen" => some rightParen
  | "Comma" => some comma
  | _ => none

end Lexeme

end ParserKit

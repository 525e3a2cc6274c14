set_option autoImplicit false

/-! # Operations

The named functions that a grammar can apply to values. Each has a fixed number of arguments, which
it takes one after the other.
-/

namespace ParserKit

/-- A named function on values. -/
inductive Operation where
  /-- The pair of two values. -/
  | tuple
  /-- A list with one value more at its front. -/
  | extend
  /-- Two lists or texts one after the other. -/
  | join
  /-- The sum of two integers. -/
  | add
  /-- The difference of two integers. -/
  | subtract
  /-- The product of two integers. -/
  | multiply
  /-- The first of two values. -/
  | constant
  /-- The list of three values. -/
  | triple
  /-- The value itself. -/
  | identity
  /-- The negative of an integer. -/
  | negate
  /-- The length of a list, a text or a span. -/
  | length
  /-- The first part of a pair. -/
  | first
  /-- The second part of a pair. -/
  | second
  /-- The text of the characters that tokens stand for. -/
  | text
  /-- The value of a decimal digit. -/
  | digit
  /-- The integer that a token stands for. -/
  | integer
  /-- The number with the given decimal digits. -/
  | number
  /-- A pair of a value and a list as one list. -/
  | cons
  /-- The value of a number followed by operators and numbers, from left to right. -/
  | foldOperators
  /-- A name without a meaning; applied to anything it is ill-typed. -/
  | unknown (name : String)
  deriving DecidableEq

namespace Operation

/-- The name of an operation. -/
def name : Operation → String
  | tuple => "tuple"
  | extend => "extend"
  | join => "join"
  | add => "add"
  | subtract => "sub"
  | multiply => "mul"
  | constant => "const"
  | triple => "triple"
  | identity => "id"
  | negate => "neg"
  | length => "len"
  | first => "first"
  | second => "second"
  | text => "str"
  | digit => "digit"
  | integer => "int"
  | number => "number"
  | cons => "cons"
  | foldOperators => "fold_ops"
  | unknown name => name

/-- The operation with a given name. -/
def ofName : String → Operation
  | "tuple" => tuple
  | "extend" => extend
  | "join" => join
  | "add" => add
  | "sub" => subtract
  | "mul" => multiply
  | "const" => constant
  | "triple" => triple
  | "id" => identity
  | "neg" => negate
  | "len" => length
  | "first" => first
  | "second" => second
  | "str" => text
  | "digit" => digit
  | "int" => integer
  | "number" => number
  | "cons" => cons
  | "fold_ops" => foldOperators
  | name => unknown name

/-- The number of arguments of an operation. -/
def arity : Operation → Nat
  | triple => 3
  | tuple | extend | join | add | subtract | multiply | constant => 2
  | _ => 1

end Operation

end ParserKit

import ParserKit.Combine
import ParserKit.Token
import ParserKit.Value

set_option autoImplicit false

/-! # Calling function values

A function value is an operation with the arguments that it has so far. Calling it adds one
argument, and applies the operation as soon as there are enough. Only the length of a span that
ends before it starts has no value at all.
-/

namespace ParserKit

variable {τ : Type} [Token τ]

namespace Value

/-- The characters that a list of tokens stands for, if each of them stands for one. -/
def characters? (items : List (Value τ)) : Option (List Char) :=
  items.mapM fun
    | element t => Token.asChar? t
    | _ => none

/-- The value of a decimal digit. -/
def digit? (c : Char) : Option Int := if c.isDigit then some (c.toNat - '0'.toNat) else none

/-- The number with the decimal digits `items`, as long as it stays in range. -/
def decimal? (items : List (Value τ)) : Option Int :=
  items.foldlM
    (fun total item =>
      match item with
      | int d => (checked? (total * 10)).bind fun shifted => checked? (shifted + d)
      | _ => none)
    0

/-- One step of a calculation: `total` combined with `n` by the operator that `t` stands for. -/
def operate? (total : Int) (t : τ) (n : Int) : Option Int :=
  match Token.asChar? t with
  | some '+' => checked? (total + n)
  | some '-' => checked? (total - n)
  | some '*' => checked? (total * n)
  | _ => none

/-- The value of `total` followed by pairs of an operator and a number, from left to right. -/
def calculate? (total : Int) (items : List (Value τ)) : Option Int :=
  items.foldlM
    (fun total item =>
      match item with
      | pair (element t) (int n) => operate? total t n
      | _ => none)
    total

end Value

/-- The value of an operation that is applied to arguments. -/
def Operation.evaluate : Operation → List (Value τ) → Except Fault (Value τ)
  | .tuple, [a, b] => .ok (Value.ofPair (Combine.tuple a b))
  | .extend, [a, .list items] => .ok (.list (Combine.extend a items))
  | .join, [.list a, .list b] => .ok (.list (Combine.join a b))
  | .join, [.text a, .text b] => .ok (.text (Combine.joinText a b.toList))
  | .join, [.text a, .list b] =>
    .ok (Value.ofText? ((Value.characters? b).map (Combine.joinText a)))
  | .add, [.int a, .int b] => .ok (Value.ofInt? (Value.checked? (a + b)))
  | .subtract, [.int a, .int b] => .ok (Value.ofInt? (Value.checked? (a - b)))
  | .multiply, [.int a, .int b] => .ok (Value.ofInt? (Value.checked? (a * b)))
  | .constant, [a, _] => .ok a
  | .triple, [a, b, c] => .ok (.list [a, b, c])
  | .identity, [a] => .ok a
  | .negate, [.int a] => .ok (Value.ofInt? (Value.checked? (-a)))
  | .length, [.list items] => .ok (Value.ofInt? (Value.checked? items.length))
  | .length, [.text s] => .ok (Value.ofInt? (Value.checked? s.length))
  | .length, [.span s] => s.length.map fun n => Value.ofInt? (Value.checked? n)
  | .first, [.pair a _] => .ok a
  | .second, [.pair _ b] => .ok b
  | .text, [.list items] => .ok (Value.ofText? ((Value.characters? items).map String.ofList))
  | .text, [.element t] => .ok (Value.ofText? ((Token.asChar? t).map String.singleton))
  | .digit, [.element t] => .ok (Value.ofInt? ((Token.asChar? t).bind Value.digit?))
  | .integer, [.element t] => .ok (Value.ofInt? (Token.asInt? t))
  | .number, [.list items] => .ok (Value.ofInt? (Value.decimal? items))
  | .cons, [.pair a (.list items)] => .ok (.list (Combine.extend a items))
  | .foldOperators, [.pair (.int n) (.list items)] => .ok (Value.ofInt? (Value.calculate? n items))
  | _, _ => .ok .illTyped

/-- The value of `f` called with one more argument. -/
def Value.call (f argument : Value τ) : Except Fault (Value τ) :=
  match f with
  | function operation arguments =>
    let arguments := arguments ++ [argument]
    if arguments.length < operation.arity then .ok (function operation arguments)
    else operation.evaluate arguments
  | _ => .ok illTyped

/-- The values of `f` called with each of some arguments in turn. -/
def Value.callEach (f : Value τ) : List (Value τ) → Except Fault (List (Value τ))
  | [] => .ok []
  | argument :: arguments => do
    let v ← f.call argument
    let vs ← v.callEach arguments
    return v :: vs

end ParserKit

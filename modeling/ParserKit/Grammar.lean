import ParserKit.Parser.Recursion
import ParserKit.Parser.Refine
import ParserKit.Parser.Repetition
import ParserKit.Parser.Sequence
import ParserKit.Value

set_option autoImplicit false

/-! # Grammars

A grammar is a parser as data: a tree with one node for each combinator, whose leaves are primitive
parsers, references to named rules, and functions on cursors of the caller's own, named by `κ`. All
of its parts yield values of type `Value τ`. Functions and tests in it are arbitrary; a function
that may have no value says so with a fault.

`Grammar.denote` gives every node its combinator. `Grammar.parser` closes the references by
recursion, so rules may refer to themselves and to each other.
-/

namespace ParserKit

/-- Parsers over tokens of type `τ` as data; `κ` names functions on cursors. -/
inductive Grammar (τ κ : Type) where
  | satisfy (expected : String) (accept : τ → Bool)
  | token (t : τ)
  | anyToken
  | endOfInput
  | emptyList
  | pure (v : Value τ)
  | map (g : Grammar τ κ) (f : Value τ → Except Fault (Value τ))
  | apply (call : Value τ → Value τ → Except Fault (Value τ)) (f a : Grammar τ κ)
  | both (a b : Grammar τ κ)
  | left (a b : Grammar τ κ)
  | right (a b : Grammar τ κ)
  | between (opening body closing : Grammar τ κ)
  | orElse (a b : Grammar τ κ)
  | optional (g : Grammar τ κ) (fallback : Value τ)
  | oneOrMore (g : Grammar τ κ)
  | zeroOrMore (g : Grammar τ κ)
  | separatedList (item separator : Grammar τ κ)
  | filter (g : Grammar τ κ) (accept : Value τ → Bool) (text : String)
  | label (g : Grammar τ κ) (expected : String)
  | spanned (g : Grammar τ κ)
  /-- A reference to a rule. -/
  | rule (name : String)
  /-- A function on cursors. -/
  | custom (k : κ)

/-- Named grammars that may refer to each other. -/
abbrev Rules (τ κ : Type) : Type := List (String × Grammar τ κ)

namespace Grammar

variable {σ τ κ : Type}

/-! ## Meaning -/

section Meaning

variable [Cursor σ τ] [Describe τ] [BEq τ] (interpret : κ → σ → Outcome σ (Value τ))

/-- The parser that a grammar stands for if its references stand for the parsers `env`. -/
def denote (env : String → Parser σ (Value τ)) : Grammar τ κ → Parser σ (Value τ)
  | satisfy expected accept => (Parser.satisfy expected accept).map .element
  | token t => (Parser.token t).map .element
  | anyToken => Parser.anyToken.map .element
  | endOfInput => Parser.endOfInput.map fun _ => .unit
  | emptyList => Parser.emptyList.map .list
  | pure v => Parser.pure v
  | map g f => ((g.denote env).map f).evaluate
  | apply call f a => (((f.denote env).map call).apply (a.denote env)).evaluate
  | both a b => ((a.denote env).both (b.denote env)).map .ofPair
  | left a b => (a.denote env).left (b.denote env)
  | right a b => (a.denote env).right (b.denote env)
  | between opening body closing =>
    Parser.between (opening.denote env) (body.denote env) (closing.denote env)
  | orElse a b => (a.denote env).orElse (b.denote env)
  | optional g fallback => (g.denote env).optional fallback
  | oneOrMore g => (g.denote env).oneOrMore.map .list
  | zeroOrMore g => (g.denote env).zeroOrMore.map .list
  | separatedList item separator =>
    ((item.denote env).separatedList (separator.denote env)).map .list
  | filter g accept text => (g.denote env).filter accept text
  | label g expected => (g.denote env).label expected
  | spanned g => (g.denote env).spanned.map .ofSpanned
  -- The only node that looks at `env`.
  | rule name => env name
  | custom k => Parser.ofFunction (interpret k)

/-- A grammar treats the parsers of its references as black boxes. -/
theorem denote_below {n : Nat} {env env' : String → Parser σ (Value τ)}
    (h : ∀ name, Parser.Below n (env name) (env' name)) (g : Grammar τ κ) :
    Parser.Below n (g.denote interpret env) (g.denote interpret env') := by
  induction g with
  | satisfy | token | anyToken | endOfInput | emptyList | pure | custom => exact .refl n _
  | map g f ih => exact (ih.map f).evaluate
  | apply call f a ihf iha => exact ((ihf.map call).apply iha).evaluate
  | both a b iha ihb => exact (iha.both ihb).map _
  | left a b iha ihb => exact iha.left ihb
  | right a b iha ihb => exact iha.right ihb
  | between o b e iho ihb ihe => exact .between iho ihb ihe
  | orElse a b iha ihb => exact iha.orElse ihb
  | optional g fallback ih => exact ih.optional fallback
  | oneOrMore g ih => exact ih.oneOrMore.map _
  | zeroOrMore g ih => exact ih.zeroOrMore.map _
  | separatedList item separator ihi ihs => exact (ihi.separatedList ihs).map _
  | filter g accept text ih => exact ih.filter accept text
  | label g expected ih => exact ih.label expected
  | spanned g ih => exact ih.spanned.map _
  | rule name => exact h name

/-- The meaning of the rule called `name` if its references stand for the parsers `env`. -/
def denoteRule (rules : Rules τ κ) (env : String → Parser σ (Value τ)) (name : String) :
    Parser σ (Value τ) :=
  match rules.lookup name with
  | some g => g.denote interpret env
  | none => Parser.abort (.undefinedRule name)

theorem local_denoteRule (rules : Rules τ κ) :
    Parser.Local (denoteRule interpret rules) := by
  intro n p q h name
  unfold denoteRule
  split
  · exact denote_below interpret h _
  · exact .refl n _

/-- The parser that the rule called `name` stands for. -/
def ruleParser (rules : Rules τ κ) : String → Parser σ (Value τ) :=
  Parser.fix (denoteRule interpret rules) (local_denoteRule interpret rules)

/-- The parser that a grammar over `rules` stands for. -/
def parser (rules : Rules τ κ) (g : Grammar τ κ) : Parser σ (Value τ) :=
  g.denote interpret (ruleParser interpret rules)

end Meaning

/-! ## Budget -/

/-- The number of nodes of a grammar. -/
def size : Grammar τ κ → Nat
  | satisfy _ _ | token _ | anyToken | endOfInput | emptyList | pure _ | rule _ | custom _ => 1
  | map g _ | optional g _ | oneOrMore g | zeroOrMore g | filter g _ _ | label g _ | spanned g =>
    g.size + 1
  | apply _ a b | both a b | left a b | right a b | orElse a b | separatedList a b =>
    a.size + b.size + 1
  | between a b c => a.size + b.size + c.size + 1

/-- The number of nodes of all rules together. -/
def rulesSize : Rules τ κ → Nat
  | [] => 0
  | (_, g) :: rules => g.size + rulesSize rules

/-- A budget for a grammar over `rules` on a source of `length` tokens. A run that comes back meets
no cursor twice in one repetition and no rule twice on one cursor in one chain of references, and
the cursors that it can meet are those of the source, the one that it starts on, and one for each
function on cursors in the grammar. -/
def budget (rules : Rules τ κ) (g : Grammar τ κ) (length : Nat) : Nat :=
  (length + g.size + rulesSize rules + 4) * (rules.length + 1)

end Grammar

end ParserKit

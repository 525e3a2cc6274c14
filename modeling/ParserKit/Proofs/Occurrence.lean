import ParserKit.Grammar
import ParserKit.Proofs.Returns

set_option autoImplicit false

/-! # Grammars and the rules that they reach

A grammar over rules is more than its own tree: a reference in it runs the rule that it names, which
may refer to further rules and back. `Occurs` says which nodes a grammar is made of in that wider
sense, and `Everywhere` that all of them have a property.

Facts about what a grammar returns are proved by `Grammar.returns_induction`: it is enough to prove
them for a grammar whose references stand for arbitrary parsers that have the property already. The
depth of the recursion does not show there.
-/

namespace ParserKit

/-! ## Induction over recursively defined parsers -/

/-- **Induction over a recursive definition.** What holds of everything that `body` returns, if it
holds of everything that the parsers given to `body` return, holds of everything that the family
defined by `body` returns. -/
theorem Parser.fix_induction {ι σ α : Type} {body : (ι → Parser σ α) → ι → Parser σ α}
    (hlocal : Parser.Local body) {Q : ι → σ → Outcome σ α → Prop}
    (step : ∀ p : ι → Parser σ α, (∀ i c o, (p i).Returns c o → Q i c o) →
      ∀ i c o, (body p i).Returns c o → Q i c o)
    {i : ι} {c : σ} {o : Outcome σ α} (h : (Parser.fix body hlocal i).Returns c o) : Q i c o := by
  -- A run within a budget is a run of a finite unfolding, so the induction is on the depth.
  have hdepth : ∀ depth i c o, (Parser.unfolding body depth i).Returns c o → Q i c o := by
    intro depth
    induction depth with
    | zero =>
        intro i c o hstuck
        exact absurd hstuck Parser.returns_stuck
    | succ depth ih => exact step _ ih
  obtain ⟨n, hn⟩ := h
  exact hdepth n i c o ⟨n, hn⟩

namespace Grammar

variable {σ τ κ : Type}

/-! ## Occurrence -/

/-- The grammars directly below a node. -/
def parts : Grammar τ κ → List (Grammar τ κ)
  | satisfy _ _ | token _ | anyToken | endOfInput | emptyList | pure _ | rule _ | custom _ => []
  | map g _ | optional g _ | oneOrMore g | zeroOrMore g | filter g _ _ | label g _ | spanned g =>
    [g]
  | apply _ a b | both a b | left a b | right a b | orElse a b | separatedList a b => [a, b]
  | between a b c => [a, b, c]

/-- The grammar `k` is a node of `g`, or of a rule that `g` refers to, directly or through other
rules. -/
inductive Occurs (rules : Rules τ κ) (k : Grammar τ κ) : Grammar τ κ → Prop where
  | here : Occurs rules k k
  | part {g h : Grammar τ κ} (hpart : h ∈ g.parts) (hk : Occurs rules k h) : Occurs rules k g
  | rule {name : String} {body : Grammar τ κ} (hbody : rules.lookup name = some body)
      (hk : Occurs rules k body) : Occurs rules k (.rule name)

theorem Occurs.trans {rules : Rules τ κ} {k h g : Grammar τ κ} (hk : Occurs rules k h)
    (hh : Occurs rules h g) : Occurs rules k g := by
  induction hh with
  | here => exact hk
  | part hpart _ ih => exact .part hpart ih
  | rule hbody _ ih => exact .rule hbody ih

/-- Every node that `g` is made of has the property `P`. -/
def Everywhere (rules : Rules τ κ) (P : Grammar τ κ → Prop) (g : Grammar τ κ) : Prop :=
  ∀ k, Occurs rules k g → P k

namespace Everywhere

variable {rules : Rules τ κ} {P : Grammar τ κ → Prop}

theorem here {g : Grammar τ κ} (h : Everywhere rules P g) : P g := h g .here

theorem of_occurs {g h : Grammar τ κ} (hg : Everywhere rules P g) (hh : Occurs rules h g) :
    Everywhere rules P h := fun k hk => hg k (hk.trans hh)

theorem part {g h : Grammar τ κ} (hg : Everywhere rules P g)
    (hpart : h ∈ g.parts := by simp [ParserKit.Grammar.parts]) : Everywhere rules P h :=
  hg.of_occurs (.part hpart .here)

theorem rule {name : String} {body : Grammar τ κ} (h : Everywhere rules P (.rule name))
    (hbody : rules.lookup name = some body) : Everywhere rules P body :=
  h.of_occurs (.rule hbody .here)

/-- Without rules, a property is to be checked at the nodes of the tree only. -/
theorem of_parts {g : Grammar τ κ} (here : P g) (hparts : ∀ h ∈ g.parts, Everywhere [] P h) :
    Everywhere [] P g := by
  intro k hk
  cases hk with
  | here => exact here
  | part hpart hk => exact hparts _ hpart k hk
  | rule hbody _ => cases hbody

/-- A property holds everywhere if it holds in the tree of the grammar and in that of each rule. -/
theorem of_trees {g : Grammar τ κ} (hg : Everywhere [] P g)
    (hrules : ∀ name body, rules.lookup name = some body → Everywhere [] P body) :
    Everywhere rules P g := by
  intro k hk
  induction hk with
  | here => exact hg.here
  | part hpart _ ih => exact ih (hg.part hpart)
  | rule hbody _ ih =>
      -- Here one tree is left and another one entered.
      exact ih (hrules _ _ hbody)

end Everywhere

/-- Whether `test` holds of all nodes of the tree of a grammar. -/
def all (test : Grammar τ κ → Bool) (g : Grammar τ κ) : Bool :=
  test g &&
    match g with
    | satisfy _ _ | token _ | anyToken | endOfInput | emptyList | pure _ | rule _ | custom _ =>
      true
    | map g _ | optional g _ | oneOrMore g | zeroOrMore g | filter g _ _ | label g _ | spanned g =>
      g.all test
    | apply _ a b | both a b | left a b | right a b | orElse a b | separatedList a b =>
      a.all test && b.all test
    | between a b c => a.all test && b.all test && c.all test

theorem all_part {test : Grammar τ κ → Bool} {g h : Grammar τ κ} (hg : g.all test = true)
    (hpart : h ∈ g.parts) : h.all test = true := by
  cases g <;> simp only [parts, List.mem_cons, List.not_mem_nil, or_false] at hpart <;>
    simp only [all, Bool.and_eq_true] at hg <;> grind

/-- A test holds everywhere if it holds in the tree of the grammar and in that of each rule. -/
theorem everywhere_of_all {test : Grammar τ κ → Bool} {rules : Rules τ κ} {g : Grammar τ κ}
    (hg : g.all test = true) (hrules : (rules.all fun rule => rule.2.all test) = true) :
    Everywhere rules (fun k => test k = true) g := by
  intro k hk
  induction hk with
  | here =>
      unfold all at hg
      exact (Bool.and_eq_true_iff.mp hg).1
  | part hpart _ ih => exact ih (all_part hg hpart)
  | @rule name body hbody _ ih =>
      obtain ⟨before, after, hsplit, _⟩ := List.lookup_eq_some_iff.mp hbody
      have hmem : (name, body) ∈ rules := by simp [hsplit]
      exact ih (List.all_eq_true.mp hrules _ hmem)

/-- Not a function on cursors of the caller's own. -/
def IsCombinator : Grammar τ κ → Prop
  | custom _ => False
  | _ => True

/-- The grammar is composed of the combinators only, as are the rules that it reaches. -/
def Composed (rules : Rules τ κ) (g : Grammar τ κ) : Prop := Everywhere rules IsCombinator g

/-- Where there are no functions on cursors to name, every grammar is composed. -/
theorem composed_of_empty (rules : Rules τ Empty) (g : Grammar τ Empty) : Composed rules g := by
  intro k _
  cases k with
  | custom k => exact k.elim
  | _ => trivial

/-! ## What grammars return -/

section Returns

variable [Cursor σ τ] [Describe τ] [BEq τ] {interpret : κ → σ → Outcome σ (Value τ)}
  {rules : Rules τ κ}

theorem denoteRule_returns {env : String → Parser σ (Value τ)} {name : String} {c : σ}
    {o : Outcome σ (Value τ)} :
    (denoteRule interpret rules env name).Returns c o ↔
      ∃ body, rules.lookup name = some body ∧ (body.denote interpret env).Returns c o := by
  unfold denoteRule
  cases rules.lookup name with
  | none => simp
  | some body => simp

/-- **A reference returns what the rule returns that it names.** -/
theorem parser_rule_returns {name : String} {c : σ} {o : Outcome σ (Value τ)} :
    ((rule name).parser interpret rules).Returns c o ↔
      ∃ body, rules.lookup name = some body ∧ (body.parser interpret rules).Returns c o := by
  show (ruleParser interpret rules name).Returns c o ↔ _
  rw [ruleParser, Parser.returns_fix, denoteRule_returns]
  rfl

/-- **Induction over what grammars return.** Let `Q` hold of everything that a grammar returns
whose references stand for parsers `env`, provided that these return nothing of which `Q` does not
hold for the rule in question. Then `Q` holds of everything that a grammar over `rules` returns. -/
theorem returns_induction {Q : Grammar τ κ → σ → Outcome σ (Value τ) → Prop}
    (step : ∀ env : String → Parser σ (Value τ),
      (∀ name c o, (env name).Returns c o →
        ∃ body, rules.lookup name = some body ∧ Q body c o) →
      ∀ g c o, (g.denote interpret env).Returns c o → Q g c o)
    {g : Grammar τ κ} {c : σ} {o : Outcome σ (Value τ)}
    (h : (g.parser interpret rules).Returns c o) : Q g c o := by
  -- The references of `g` are the rules, and the rules are a recursive family.
  refine step (ruleParser interpret rules) ?_ g c o h
  intro name c o hname
  refine Parser.fix_induction (local_denoteRule interpret rules)
    (Q := fun name c o => ∃ body, rules.lookup name = some body ∧ Q body c o) ?_ hname
  intro env henv name c o hrule
  obtain ⟨body, hbody, hreturns⟩ := denoteRule_returns.mp hrule
  exact ⟨body, hbody, step env henv body c o hreturns⟩

/-- Induction over the successes of grammars that satisfy `P`. -/
theorem success_induction {P : Grammar τ κ → Prop} {R : Grammar τ κ → σ → Value τ → σ → Prop}
    (step : ∀ env : String → Parser σ (Value τ),
      (∀ name c v rest, (env name).Returns c (.success v rest) →
        ∃ body, rules.lookup name = some body ∧ (P body → R body c v rest)) →
      ∀ g, P g → ∀ c v rest, (g.denote interpret env).Returns c (.success v rest) → R g c v rest)
    {g : Grammar τ κ} (hg : P g) {c : σ} {v : Value τ} {rest : σ}
    (h : (g.parser interpret rules).Returns c (.success v rest)) : R g c v rest := by
  refine returns_induction (Q := fun g c o => P g → ∀ v rest, o = .success v rest → R g c v rest)
    ?_ h hg v rest rfl
  intro env henv g c o hreturns hg v rest ho
  subst ho
  refine step env (fun name c v rest hname => ?_) g hg c v rest hreturns
  obtain ⟨body, hbody, hQ⟩ := henv name c _ hname
  exact ⟨body, hbody, fun hP => hQ hP v rest rfl⟩

end Returns

end Grammar

end ParserKit

import Mathlib.Data.Finset.Card
import Mathlib.Data.Finset.Dedup
import Mathlib.Logic.Relation
import ParserKit.Proofs.Halting
import ParserKit.Proofs.Nullability

set_option autoImplicit false

/-! # Grammars without left recursion come back

A rule may be run again before it has come back. That is harmless as long as something was read in
between, for there are only so many tokens. `LeftCalls` says which references a grammar can run on
the very cursor on which it was run itself: those with nothing but nullable parts before them. If
no rule leads back to itself along such references, each chain of them is shorter than the list of
rules, and every run comes back.

The argument has two halves. `Grammar.denote_halts` is about one grammar, by structure: it halts on
a cursor if its references halt there as far as it calls them from the left, and if all of them
halt on the later cursors. `Grammar.unfolding_halts` is about the rules, by the depth to which
they are unfolded: each call from the left goes down in `Grammar.leftRank`, and each token read
pays for going up again.
-/

namespace ParserKit

open Cursor LawfulCursor

namespace Grammar

variable {τ κ : Type}

/-! ## Calls from the left -/

/-- The grammar can run the rule called `name` on the cursor on which it is run itself, as far as
its nodes tell: no part before the reference has to read. -/
inductive LeftCalls (rules : Rules τ κ) (name : String) : Grammar τ κ → Prop where
  | rule : LeftCalls rules name (.rule name)
  | map {g : Grammar τ κ} {f : Value τ → Except Fault (Value τ)} (h : LeftCalls rules name g) :
      LeftCalls rules name (.map g f)
  | applyFirst {call : Value τ → Value τ → Except Fault (Value τ)} {f a : Grammar τ κ}
      (h : LeftCalls rules name f) : LeftCalls rules name (.apply call f a)
  | applySecond {call : Value τ → Value τ → Except Fault (Value τ)} {f a : Grammar τ κ}
      (hf : Nullable rules f) (h : LeftCalls rules name a) : LeftCalls rules name (.apply call f a)
  | bothFirst {a b : Grammar τ κ} (h : LeftCalls rules name a) : LeftCalls rules name (.both a b)
  | bothSecond {a b : Grammar τ κ} (ha : Nullable rules a) (h : LeftCalls rules name b) :
      LeftCalls rules name (.both a b)
  | leftFirst {a b : Grammar τ κ} (h : LeftCalls rules name a) : LeftCalls rules name (.left a b)
  | leftSecond {a b : Grammar τ κ} (ha : Nullable rules a) (h : LeftCalls rules name b) :
      LeftCalls rules name (.left a b)
  | rightFirst {a b : Grammar τ κ} (h : LeftCalls rules name a) : LeftCalls rules name (.right a b)
  | rightSecond {a b : Grammar τ κ} (ha : Nullable rules a) (h : LeftCalls rules name b) :
      LeftCalls rules name (.right a b)
  | betweenOpening {a b e : Grammar τ κ} (h : LeftCalls rules name a) :
      LeftCalls rules name (.between a b e)
  | betweenBody {a b e : Grammar τ κ} (ha : Nullable rules a) (h : LeftCalls rules name b) :
      LeftCalls rules name (.between a b e)
  | betweenClosing {a b e : Grammar τ κ} (ha : Nullable rules a) (hb : Nullable rules b)
      (h : LeftCalls rules name e) : LeftCalls rules name (.between a b e)
  | orElseFirst {a b : Grammar τ κ} (h : LeftCalls rules name a) :
      LeftCalls rules name (.orElse a b)
  | orElseSecond {a b : Grammar τ κ} (h : LeftCalls rules name b) :
      LeftCalls rules name (.orElse a b)
  | optional {g : Grammar τ κ} {fallback : Value τ} (h : LeftCalls rules name g) :
      LeftCalls rules name (.optional g fallback)
  | oneOrMore {g : Grammar τ κ} (h : LeftCalls rules name g) : LeftCalls rules name (.oneOrMore g)
  | zeroOrMore {g : Grammar τ κ} (h : LeftCalls rules name g) :
      LeftCalls rules name (.zeroOrMore g)
  | separatedListFirst {item separator : Grammar τ κ} (h : LeftCalls rules name item) :
      LeftCalls rules name (.separatedList item separator)
  | separatedListSeparator {item separator : Grammar τ κ} (hi : Nullable rules item)
      (h : LeftCalls rules name separator) : LeftCalls rules name (.separatedList item separator)
  | separatedListNext {item separator : Grammar τ κ} (hi : Nullable rules item)
      (hs : Nullable rules separator) (h : LeftCalls rules name item) :
      LeftCalls rules name (.separatedList item separator)
  | filter {g : Grammar τ κ} {accept : Value τ → Bool} {text : String}
      (h : LeftCalls rules name g) : LeftCalls rules name (.filter g accept text)
  | label {g : Grammar τ κ} {expected : String} (h : LeftCalls rules name g) :
      LeftCalls rules name (.label g expected)
  | spanned {g : Grammar τ κ} (h : LeftCalls rules name g) : LeftCalls rules name (.spanned g)

/-- The rule `a` can run the rule `b` on the cursor on which it is run itself. -/
def LeftReaches (rules : Rules τ κ) (a b : String) : Prop :=
  ∃ body, rules.lookup a = some body ∧ LeftCalls rules b body

/-- The rule `name` can come back to itself without reading. -/
def LeftRecursive (rules : Rules τ κ) (name : String) : Prop :=
  Relation.TransGen (LeftReaches rules) name name

variable {rules : Rules τ κ}

theorem LeftCalls.occurs {name : String} {g : Grammar τ κ} (h : LeftCalls rules name g) :
    Occurs rules (.rule name) g := by
  induction h with
  | rule => exact .here
  | _ =>
      rename_i ih
      exact .part (by simp [parts]) ih

/-! ## The rank of a rule -/

open Classical in
/-- How many of the rules the rule `name` can come to without reading. -/
noncomputable def leftRank (rules : Rules τ κ) (name : String) : Nat :=
  ((rules.map Prod.fst).toFinset.filter fun b =>
    Relation.TransGen (LeftReaches rules) name b).card

theorem leftRank_le (rules : Rules τ κ) (name : String) : leftRank rules name ≤ rules.length := by
  classical
  calc leftRank rules name
    _ ≤ (rules.map Prod.fst).toFinset.card := Finset.card_filter_le _ _
    _ ≤ (rules.map Prod.fst).length := List.toFinset_card_le _
    _ = rules.length := List.length_map _

/-- A call from the left goes down in rank, unless it is part of a left recursion. -/
theorem leftRank_lt {a b : String} {body : Grammar τ κ} (h : LeftReaches rules a b)
    (hbody : rules.lookup b = some body) (hrec : ¬ LeftRecursive rules b) :
    leftRank rules b < leftRank rules a := by
  classical
  have hmem : b ∈ (rules.map Prod.fst).toFinset := by
    obtain ⟨before, after, hrules, _⟩ := List.lookup_eq_some_iff.mp hbody
    simp [hrules]
  -- What `b` comes to, `a` comes to through `b`; and `a` comes to `b` itself.
  refine Finset.card_lt_card ⟨?_, ?_⟩
  · intro z hz
    rw [Finset.mem_filter] at hz ⊢
    exact ⟨hz.1, hz.2.head h⟩
  · intro hsub
    have hb := hsub (Finset.mem_filter.mpr ⟨hmem, .single h⟩)
    exact hrec (Finset.mem_filter.mp hb).2

/-- One token more pays for every rank. -/
theorem mul_add_leftRank_lt (rules : Rules τ κ) (name : String) {m k : Nat} (h : m < k) :
    m * (rules.length + 1) + leftRank rules name < k * (rules.length + 1) := by
  have hrank := leftRank_le rules name
  calc m * (rules.length + 1) + leftRank rules name
    _ < m * (rules.length + 1) + (rules.length + 1) := by omega
    _ = (m + 1) * (rules.length + 1) := (Nat.succ_mul m _).symm
    _ ≤ k * (rules.length + 1) := Nat.mul_le_mul_right _ h

/-! ## Total grammars -/

/-- The functions of a node have a value for all arguments, and its reference names a rule. Nothing
is known of functions on cursors, so there may be none. -/
def NodeTotal (rules : Rules τ κ) : Grammar τ κ → Prop
  | map _ f => ∀ v, ∃ w, f v = .ok w
  | apply call _ _ => ∀ v w, ∃ u, call v w = .ok u
  | rule name => ∃ body, rules.lookup name = some body
  | custom _ => False
  | _ => True

/-- All nodes of the grammar and of the rules that it reaches are total. -/
def Total (rules : Rules τ κ) (g : Grammar τ κ) : Prop := Everywhere rules (NodeTotal rules) g

theorem Total.composed {g : Grammar τ κ} (hg : Total rules g) : Composed rules g := by
  intro k hk
  have htotal := hg k hk
  cases k with
  | custom k => exact htotal
  | _ => trivial

/-! ## One grammar -/

section Supplies

variable {σ : Type} [Cursor σ τ] [LawfulCursor σ τ] {env : String → Parser σ (Value τ)} {n : Nat}

/-- The budget `n` is enough for what `g`, run on `c`, may run: for the rounds of a loop, for the
references that it calls from the left on `c`, and for all of its references on later cursors. -/
structure Supplies (rules : Rules τ κ) (env : String → Parser σ (Value τ)) (n : Nat)
    (g : Grammar τ κ) (c : σ) : Prop where
  rounds : (upcoming c).length < n
  here : ∀ name, LeftCalls rules name g → Parser.Halts n (env name) c
  later : ∀ name c', Occurs rules (.rule name) g → Reaches c c' → c' ≠ c →
    Parser.Halts n (env name) c'

/-- What is enough for a grammar on a cursor is enough for a part of it on the cursor where the part
is run, if the part calls no more from the left than the whole as long as nothing was read. -/
theorem Supplies.part {P : Prop} {g h : Grammar τ κ} {c mid : σ} (hs : Supplies rules env n g c)
    (hmid : Moves P c mid) (hleft : P → ∀ name, LeftCalls rules name h → LeftCalls rules name g)
    (hpart : h ∈ g.parts := by simp [ParserKit.Grammar.parts]) : Supplies rules env n h mid := by
  have hsum := hmid.1.position_add_length
  have hle := hmid.1.position_le
  have hrounds := hs.rounds
  refine ⟨by omega, ?_, ?_⟩
  · intro name hname
    by_cases hstay : mid = c
    · subst hstay
      exact hs.here name (hleft (hmid.2 rfl) name hname)
    · exact hs.later name mid (.part hpart hname.occurs) hmid.1 hstay
  · intro name c' hname hc' hne
    refine hs.later name c' (.part hpart hname) (hmid.1.trans hc') ?_
    -- There is no way back to `c` that is not standing still.
    rintro rfl
    exact hne (hc'.eq_of_position_le hle)

variable [Describe τ] [BEq τ] {interpret : κ → σ → Outcome σ (Value τ)}

/-- **A grammar halts where its references do.** The references have to return nothing but what the
rules return. -/
theorem denote_halts
    (henv : ∀ name c o, (env name).Returns c o → (ruleParser interpret rules name).Returns c o)
    {g : Grammar τ κ} (hg : Total rules g) {c : σ} (hs : Supplies rules env n g c) :
    Parser.Halts n (g.denote interpret env) c := by
  have hmoves : ∀ g, Composed rules g →
      Parser.MovesUnless (Nullable rules g) (g.denote interpret env) := by
    refine fun g hg => denote_movesUnless (fun name c v rest hname => ?_) g hg
    obtain ⟨body, hbody, hreturns⟩ := parser_rule_returns.mp (henv name c _ hname)
    exact ⟨body, hbody, fun hcomposed => hcomposed.movesUnless c v rest hreturns⟩
  induction g generalizing c with
  | satisfy expected accept => exact (Parser.halts_ofFunction n _ c).map _
  | token t => exact (Parser.halts_ofFunction n _ c).map _
  | anyToken => exact (Parser.halts_ofFunction n _ c).map _
  | endOfInput => exact (Parser.halts_ofFunction n _ c).map _
  | emptyList => exact (Parser.halts_ofFunction n _ c).map _
  | pure v => exact Parser.halts_ofFunction n _ c
  | map g f ih =>
      have hbody := ih hg.part (hs.part (.stay c) fun _ _ => .map)
      refine (hbody.map f).evaluate fun v rest hv => ?_
      obtain ⟨u, _, rfl⟩ := Parser.map_success.mp hv
      exact hg.here u
  | apply call f a ihf iha =>
      have hf := ihf hg.part (hs.part (.stay c) fun _ _ => .applyFirst)
      refine ((hf.map call).apply fun _ mid hmid => ?_).evaluate fun v rest hv => ?_
      · obtain ⟨u, hu, _⟩ := Parser.map_success.mp hmid
        have hread := hmoves f hg.composed.part c u mid hu
        exact iha hg.part (hs.part hread fun hnull _ => .applySecond hnull)
      · obtain ⟨_, mid, w, hfunction, _, rfl⟩ := Parser.apply_success.mp hv
        obtain ⟨u, _, rfl⟩ := Parser.map_success.mp hfunction
        exact hg.here u w
  | both a b iha ihb =>
      have ha := iha hg.part (hs.part (.stay c) fun _ _ => .bothFirst)
      refine (ha.both fun v mid hv => ?_).map _
      have hread := hmoves a hg.composed.part c v mid hv
      exact ihb hg.part (hs.part hread fun hnull _ => .bothSecond hnull)
  | left a b iha ihb =>
      have ha := iha hg.part (hs.part (.stay c) fun _ _ => .leftFirst)
      refine ha.left fun v mid hv => ?_
      have hread := hmoves a hg.composed.part c v mid hv
      exact ihb hg.part (hs.part hread fun hnull _ => .leftSecond hnull)
  | right a b iha ihb =>
      have ha := iha hg.part (hs.part (.stay c) fun _ _ => .rightFirst)
      refine ha.right fun v mid hv => ?_
      have hread := hmoves a hg.composed.part c v mid hv
      exact ihb hg.part (hs.part hread fun hnull _ => .rightSecond hnull)
  | between a b e iha ihb ihe =>
      have ha := iha hg.part (hs.part (.stay c) fun _ _ => .betweenOpening)
      refine ha.between (fun v mid hv => ?_) fun v mid w mid' hv hw => ?_
      · have hread := hmoves a hg.composed.part c v mid hv
        exact ihb hg.part (hs.part hread fun hnull _ => .betweenBody hnull)
      · have hread := hmoves a hg.composed.part c v mid hv
        have hread' := hmoves b hg.composed.part mid w mid' hw
        refine ihe hg.part (hs.part (hread.trans hread') fun hnull _ => ?_)
        exact .betweenClosing hnull.1 hnull.2
  | orElse a b iha ihb =>
      have ha := iha hg.part (hs.part (.stay c) fun _ _ => .orElseFirst)
      have hb := ihb hg.part (hs.part (.stay c) fun _ _ => .orElseSecond)
      exact ha.orElse hb
  | optional g fallback ih =>
      have hbody := ih hg.part (hs.part (.stay c) fun _ _ => .optional)
      exact hbody.optional fallback
  | oneOrMore g ih =>
      -- Every round calls from the left no more than the first one.
      have hbody : ∀ c', Reaches c c' → Parser.Halts n (g.denote interpret env) c' :=
        fun c' hc' => ih hg.part (hs.part hc'.moves fun _ _ => .oneOrMore)
      have hreads := (hmoves g hg.composed.part).consumes
      exact (Parser.Halts.oneOrMore hreads hbody hs.rounds).map _
  | zeroOrMore g ih =>
      have hbody : ∀ c', Reaches c c' → Parser.Halts n (g.denote interpret env) c' :=
        fun c' hc' => ih hg.part (hs.part hc'.moves fun _ _ => .zeroOrMore)
      have hreads := (hmoves g hg.composed.part).consumes
      exact (Parser.Halts.oneOrMore hreads hbody hs.rounds).zeroOrMore.map _
  | separatedList item separator ihi ihs =>
      have hitem := hmoves item hg.composed.part
      have hseparator := hmoves separator hg.composed.part
      refine (Parser.Halts.separatedList hitem.consumes hseparator.consumes (fun c' hc' => ?_)
        (fun v mid hv c' hc' => ?_) hs.rounds).map _
      · exact ihi hg.part (hs.part hc'.moves fun _ _ => .separatedListFirst)
      · have hread := (hitem c v mid hv).reaches hc'
        exact ihs hg.part (hs.part hread fun hnull _ => .separatedListSeparator hnull)
  | filter g accept text ih =>
      have hbody := ih hg.part (hs.part (.stay c) fun _ _ => .filter)
      exact hbody.filter accept text
  | label g expected ih =>
      have hbody := ih hg.part (hs.part (.stay c) fun _ _ => .label)
      exact hbody.label expected
  | spanned g ih =>
      have hbody := ih hg.part (hs.part (.stay c) fun _ _ => .spanned)
      exact hbody.spanned.map _
  | rule name => exact hs.here name .rule
  | custom k => exact hg.here.elim

end Supplies

end Grammar

/-! ## The rules -/

namespace Parser

variable {ι σ α : Type} {body : (ι → Parser σ α) → ι → Parser σ α}

theorem Local.unfolding_le (h : Local body) (n : Nat) {depth depth' : Nat} (hle : depth ≤ depth')
    (i : ι) : Below n (unfolding body depth i) (unfolding body depth' i) := by
  induction hle with
  | refl => exact .refl n _
  | step _ ih => exact ih.trans (h.unfolding_succ n _ i)

/-- What a definition returns that is unfolded finitely often, the recursively defined parser
returns. -/
theorem returns_fix_of_unfolding (h : Local body) {depth : Nat} {i : ι} {c : σ} {o : Outcome σ α}
    (hreturns : (unfolding body depth i).Returns c o) : (fix body h i).Returns c o := by
  obtain ⟨n, hn⟩ := hreturns
  have hn' := (unfolding body depth i).run_of_le (Nat.le_max_left n depth) hn
  exact ⟨max n depth, (h.unfolding_le _ (Nat.le_max_right n depth) i c).eq_ok hn'⟩

end Parser

namespace Grammar

section Rules

variable {σ τ κ : Type} [Cursor σ τ] [LawfulCursor σ τ] [Describe τ] [BEq τ]
  {interpret : κ → σ → Outcome σ (Value τ)} {rules : Rules τ κ} {n : Nat}

/-- A rule halts if it is unfolded often enough: once for each call from the left, and anew for each
token that is read. -/
theorem unfolding_halts {depth : Nat} {name : String} {c : σ}
    (htotal : Total rules (.rule name))
    (hrec : ∀ b, Occurs rules (.rule b) (.rule name) → ¬ LeftRecursive rules b)
    (hrounds : (upcoming c).length < n)
    (hdepth : (upcoming c).length * (rules.length + 1) + leftRank rules name < depth) :
    Parser.Halts n (Parser.unfolding (denoteRule interpret rules) depth name) c := by
  induction depth generalizing name c with
  | zero => omega
  | succ depth ih =>
      obtain ⟨body, hbody⟩ := htotal.here
      have hunfold : Parser.unfolding (denoteRule interpret rules) (depth + 1) name
          = body.denote interpret (Parser.unfolding (denoteRule interpret rules) depth) := by
        show denoteRule interpret rules _ name = _
        rw [denoteRule, hbody]
        rfl
      rw [hunfold]
      refine denote_halts (fun _ _ _ => Parser.returns_fix_of_unfolding _) (htotal.rule hbody)
        ⟨hrounds, ?_, ?_⟩
      · -- A call from the left costs one unfolding and goes down in rank.
        intro b hb
        have hoccurs : Occurs rules (.rule b) (.rule name) := .rule hbody hb.occurs
        have hb' : Total rules (.rule b) := htotal.of_occurs hoccurs
        obtain ⟨_, hlookup⟩ := hb'.here
        have hlt := leftRank_lt ⟨body, hbody, hb⟩ hlookup (hrec b hoccurs)
        exact ih hb' (fun d hd => hrec d (hd.trans hoccurs)) hrounds (by omega)
      · -- A token was read, and that pays for the highest rank there is.
        intro b c' hb hc' hne
        have hoccurs : Occurs rules (.rule b) (.rule name) := .rule hbody hb
        have hfewer := hc'.length_lt hne
        have hpaid := mul_add_leftRank_lt rules b hfewer
        exact ih (htotal.of_occurs hoccurs) (fun d hd => hrec d (hd.trans hoccurs)) (by omega)
          (by omega)

/-- A total grammar whose rules are not left recursive halts within every budget that is large
enough for the tokens left and the number of rules. -/
theorem parser_halts {g : Grammar τ κ} {c : σ} (hg : Total rules g)
    (hrec : ∀ name, Occurs rules (.rule name) g → ¬ LeftRecursive rules name)
    (hn : ((upcoming c).length + 1) * (rules.length + 1) ≤ n) :
    Parser.Halts n (g.parser interpret rules) c := by
  -- The budget is both the number of rounds and the depth of the unfolding.
  have hrounds : (upcoming c).length + 1 ≤ ((upcoming c).length + 1) * (rules.length + 1) :=
    Nat.le_mul_of_pos_right _ (Nat.succ_pos _)
  have hrule : ∀ name c', Occurs rules (.rule name) g →
      (upcoming c').length ≤ (upcoming c).length →
      Parser.Halts n (ruleParser interpret rules name) c' := by
    intro name c' hname hle
    have hfewer : (upcoming c').length < (upcoming c).length + 1 := by omega
    have hpaid := mul_add_leftRank_lt rules name hfewer
    exact unfolding_halts (hg.of_occurs hname) (fun b hb => hrec b (hb.trans hname)) (by omega)
      (by omega)
  refine denote_halts (fun _ _ _ => id) hg ⟨by omega, ?_, ?_⟩
  · exact fun name hname => hrule name c hname.occurs (Nat.le_refl _)
  · exact fun name c' hname hc' hne => hrule name c' hname (Nat.le_of_lt (hc'.length_lt hne))

end Rules

/-! ## Every run comes back -/

section Sources

variable {σ τ φ κ : Type} [SourceCursor σ τ φ] [LawfulCursor σ τ] [TokenSource φ τ]
  [LawfulSource σ τ φ] [Describe τ] [BEq τ]

/-- **Grammars without left recursion come back.** Let a grammar be composed of the combinators,
with functions that have a value for all arguments and references to rules that exist. If none of
the rules that it reaches can come back to itself without reading, it returns an outcome on every
cursor, and the budget computed from the grammar and the source is enough to find it. That covers
the grammars without references: nothing has to be known of the rules then. -/
theorem returns_of_not_leftRecursive (interpret : κ → σ → Outcome σ (Value τ)) (rules : Rules τ κ)
    (g : Grammar τ κ) (hg : Total rules g)
    (hrec : ∀ name, Occurs rules (.rule name) g → ¬ LeftRecursive rules name) (c : σ) :
    ∃ o, (g.parser interpret rules).Returns c o
      ∧ (g.parser interpret rules).run (budget rules g (SourceCursor.sourceLength c)) c = .ok o := by
  have hlength := LawfulSource.length_upcoming_le c
  have hbudget : ((upcoming c).length + 1) * (rules.length + 1)
      ≤ budget rules g (SourceCursor.sourceLength c) := by
    unfold budget
    exact Nat.mul_le_mul_right _ (by omega)
  obtain ⟨o, ho⟩ : Parser.Halts _ (g.parser interpret rules) c := parser_halts hg hrec hbudget
  exact ⟨o, ⟨_, ho⟩, ho⟩

end Sources

/-- Lists of letters and of lists in brackets. The rule for lists repeats something that may read
nothing, and calls the rule for items from the left; that one comes back to lists, but only behind a
bracket. -/
def bracketRules (κ : Type) : Rules Char κ :=
  [("list", .zeroOrMore (.optional (.rule "item") .unit)),
   ("item", .orElse (.satisfy "letter" Char.isAlpha)
      (.between (.token '(') (.rule "list") (.token ')')))]

theorem lookup_bracketRules {κ : Type} {name : String} {body : Grammar Char κ}
    (h : (bracketRules κ).lookup name = some body) :
    (name = "list" ∧ body = .zeroOrMore (.optional (.rule "item") .unit))
      ∨ (name = "item" ∧ body = .orElse (.satisfy "letter" Char.isAlpha)
          (.between (.token '(') (.rule "list") (.token ')'))) := by
  rw [bracketRules, List.lookup_cons, List.lookup_cons] at h
  grind

theorem not_leftRecursive_bracketRules {κ : Type} (name : String) :
    ¬ LeftRecursive (bracketRules κ) name := by
  have hstep : ∀ a b, LeftReaches (bracketRules κ) a b → a = "list" ∧ b = "item" := by
    rintro a b ⟨body, hbody, hcalls⟩
    obtain ⟨rfl, rfl⟩ | ⟨rfl, rfl⟩ := lookup_bracketRules hbody
    · cases hcalls with
      | zeroOrMore h =>
          cases h with
          | optional h =>
              cases h
              exact ⟨rfl, rfl⟩
    · -- What an item calls stands behind a bracket, which is not nullable.
      cases hcalls with
      | orElseFirst h => cases h
      | orElseSecond h =>
          cases h with
          | betweenOpening h => cases h
          | betweenBody ha h => cases ha
          | betweenClosing ha hb h => cases ha
  -- A cycle would start at lists and end at items.
  intro h
  obtain ⟨b, hfirst, _⟩ := Relation.TransGen.head'_iff.mp h
  obtain ⟨d, _, hlast⟩ := Relation.TransGen.tail'_iff.mp h
  have hlist := (hstep _ _ hfirst).1
  have hitem := (hstep _ _ hlast).2
  rw [hlist] at hitem
  exact absurd hitem (by decide)

theorem total_bracketRules {κ : Type} : Total (bracketRules κ) (.rule "list") := by
  have hleaf : ∀ g, g.parts = [] → NodeTotal (bracketRules κ) g →
      Everywhere [] (NodeTotal (bracketRules κ)) g := by
    intro g hparts hg
    refine .of_parts hg ?_
    simp [hparts]
  refine .of_trees (hleaf _ rfl ⟨_, rfl⟩) ?_
  intro name body hbody
  obtain ⟨-, rfl⟩ | ⟨-, rfl⟩ := lookup_bracketRules hbody
  · refine .of_parts trivial ?_
    simp only [parts, List.forall_mem_singleton]
    refine .of_parts trivial ?_
    simp only [parts, List.forall_mem_singleton]
    exact hleaf _ rfl ⟨_, rfl⟩
  · refine .of_parts trivial ?_
    simp only [parts, List.mem_cons, List.not_mem_nil, or_false, forall_eq_or_imp, forall_eq]
    refine ⟨hleaf _ rfl trivial, .of_parts trivial ?_⟩
    simp only [parts, List.mem_cons, List.not_mem_nil, or_false, forall_eq_or_imp, forall_eq]
    exact ⟨hleaf _ rfl trivial, hleaf _ rfl ⟨_, rfl⟩, hleaf _ rfl trivial⟩

/-- Lists in brackets come back, on a text where a bracket is missing and on tokens of which one has
been passed over; and so does the repetition of nothing, next to a rule that is left recursive. -/
theorem returns_of_not_leftRecursive_brackets :
    (∃ o, ((rule "list").parser Empty.elim (bracketRules Empty)).Returns
        (TextCursor.start "a(b(") o)
      ∧ (∃ o, ((rule "list").parser Empty.elim (bracketRules Empty)).Returns
          (TokenCursor.valid #['x', '(', 'a', ')'] 1) o)
      ∧ LeftRecursive [("loop", (rule "loop" : Grammar Char Empty))] "loop"
      ∧ ∃ o, ((zeroOrMore (pure .unit)).parser Empty.elim
          [("loop", (rule "loop" : Grammar Char Empty))]).Returns (TextCursor.start "a") o := by
  refine ⟨?_, ?_, .single ⟨_, rfl, .rule⟩, ?_⟩
  · obtain ⟨o, ho, _⟩ := returns_of_not_leftRecursive Empty.elim (bracketRules Empty)
      (rule "list") total_bracketRules (fun name _ => not_leftRecursive_bracketRules name)
      (TextCursor.start "a(b(")
    exact ⟨o, ho⟩
  · obtain ⟨o, ho, _⟩ := returns_of_not_leftRecursive Empty.elim (bracketRules Empty)
      (rule "list") total_bracketRules (fun name _ => not_leftRecursive_bracketRules name)
      (TokenCursor.valid #['x', '(', 'a', ')'] 1)
    exact ⟨o, ho⟩
  · have hnodes : ∀ k : Grammar Char Empty,
        Occurs [("loop", rule "loop")] k (zeroOrMore (pure .unit)) →
        k = zeroOrMore (pure .unit) ∨ k = pure .unit := by
      intro k hk
      cases hk with
      | here => exact Or.inl rfl
      | part hpart hk =>
          obtain rfl := List.mem_singleton.mp hpart
          cases hk with
          | here => exact Or.inr rfl
          | part hpart _ => cases hpart
    obtain ⟨o, ho, _⟩ := returns_of_not_leftRecursive Empty.elim [("loop", rule "loop")]
      (zeroOrMore (pure .unit))
      (fun k hk => by obtain rfl | rfl := hnodes k hk <;> trivial)
      (fun name hname => by obtain h | h := hnodes _ hname <;> cases h)
      (TextCursor.start "a")
    exact ⟨o, ho⟩

end Grammar

end ParserKit

import ParserKit.Grammar.Routine
import ParserKit.Proofs.Occurrence
import ParserKit.Proofs.Reading
import ParserKit.Proofs.Rounds

set_option autoImplicit false

/-! # What a successful parser has read

A parser *consumes* if each of its successes ends at a cursor that can be reached from the first one
by reading. The combinators keep this: none of them hands on a cursor from a branch that failed, and
none goes back. So every grammar consumes, through repetition, choice and recursion
(`denote_consumes`), and the tokens between the two cursors are what it has taken from its source.
-/

namespace ParserKit

namespace Parser

variable {σ τ α β γ : Type} [Cursor σ τ]

/-- Every success of `p` ends at a cursor reached by reading. -/
def Consumes (p : Parser σ α) : Prop :=
  ∀ (c : σ) (v : α) (rest : σ), p.Returns c (.success v rest) → Reaches c rest

/-! ## Primitive parsers -/

theorem consumes_satisfy [Describe τ] (expected : String) (accept : τ → Bool) :
    Consumes (satisfy expected accept : Parser σ τ) := by
  intro c t rest h
  obtain ⟨hnext, _⟩ := satisfy_success.mp h
  exact .next hnext

theorem consumes_endOfInput [Describe τ] : Consumes (endOfInput : Parser σ Unit) := by
  intro c u rest h
  obtain ⟨_, rfl⟩ := endOfInput_success.mp h
  exact .refl _

theorem consumes_pure (v : α) : Consumes (Parser.pure v : Parser σ α) := by
  intro c w rest h
  cases returns_pure.mp h
  exact .refl _

theorem consumes_emptyList : Consumes (emptyList : Parser σ (List α)) := by
  intro c w rest h
  cases returns_emptyList.mp h
  exact .refl _

namespace Consumes

/-! ## Sequences -/

theorem map {p : Parser σ α} (hp : Consumes p) (f : α → β) : Consumes (p.map f) := by
  intro c w rest h
  obtain ⟨v, hv, _⟩ := map_success.mp h
  exact hp _ _ _ hv

theorem evaluate {p : Parser σ (Except Fault α)} (hp : Consumes p) : Consumes p.evaluate := by
  intro c v rest h
  exact hp _ _ _ (evaluate_success.mp h)

theorem apply {f : Parser σ (α → β)} {a : Parser σ α} (hf : Consumes f) (ha : Consumes a) :
    Consumes (f.apply a) := by
  intro c w rest h
  obtain ⟨g, mid, v, hg, hv, _⟩ := apply_success.mp h
  exact (hf _ _ _ hg).trans (ha _ _ _ hv)

theorem both {p : Parser σ α} {q : Parser σ β} (hp : Consumes p) (hq : Consumes q) :
    Consumes (p.both q) := by
  intro c w rest h
  obtain ⟨mid, ha, hb⟩ := both_success.mp h
  exact (hp _ _ _ ha).trans (hq _ _ _ hb)

theorem left {p : Parser σ α} {q : Parser σ β} (hp : Consumes p) (hq : Consumes q) :
    Consumes (p.left q) := by
  intro c v rest h
  obtain ⟨b, mid, ha, hb⟩ := left_success.mp h
  exact (hp _ _ _ ha).trans (hq _ _ _ hb)

theorem right {p : Parser σ α} {q : Parser σ β} (hp : Consumes p) (hq : Consumes q) :
    Consumes (p.right q) := by
  intro c v rest h
  obtain ⟨a, mid, ha, hb⟩ := right_success.mp h
  exact (hp _ _ _ ha).trans (hq _ _ _ hb)

theorem between {opening : Parser σ α} {body : Parser σ β} {closing : Parser σ γ}
    (ho : Consumes opening) (hb : Consumes body) (hc : Consumes closing) :
    Consumes (Parser.between opening body closing) := by
  intro c v rest h
  obtain ⟨_, mid, _, mid', hopen, hbody, hclose⟩ := between_success.mp h
  exact (ho _ _ _ hopen).trans ((hb _ _ _ hbody).trans (hc _ _ _ hclose))

/-! ## Choice and refinements -/

theorem orElse {p q : Parser σ α} (hp : Consumes p) (hq : Consumes q) :
    Consumes (p.orElse q) := by
  intro c v rest h
  rcases orElse_success.mp h with h | ⟨e, _, h⟩
  · exact hp _ _ _ h
  · exact hq _ _ _ h

theorem optional {p : Parser σ α} (hp : Consumes p) (fallback : α) :
    Consumes (p.optional fallback) := hp.orElse (consumes_pure fallback)

theorem filter {p : Parser σ α} (hp : Consumes p) (accept : α → Bool) (text : String) :
    Consumes (p.filter accept text) := by
  intro c v rest h
  exact hp _ _ _ (filter_success.mp h).1

theorem label [Describe τ] {p : Parser σ α} (hp : Consumes p) (expected : String) :
    Consumes (p.label expected) := by
  intro c v rest h
  exact hp _ _ _ (label_success.mp h)

theorem spanned {p : Parser σ α} (hp : Consumes p) : Consumes p.spanned := by
  intro c w rest h
  exact hp _ _ _ (spanned_success.mp h).1

/-! ## Repetition -/

theorem rounds {p : Parser σ α} (hp : Consumes p) {previous : Nat} {c rest : σ} {vs : List α}
    (h : Rounds p previous c vs rest) : Reaches c rest := by
  induction h with
  | still | refused => exact .refl _
  | again _ hfirst _ ih =>
      have hround := hp _ _ _ hfirst
      exact hround.trans ih

theorem separatedRounds {separator : Parser σ β} {item : Parser σ α} (hs : Consumes separator)
    (hi : Consumes item) {c rest : σ} {vs : List α}
    (h : SeparatedRounds separator item c vs rest) : Reaches c rest := by
  induction h with
  | noSeparator | noItem => exact .refl _
  | still hsep hitem => exact (hs _ _ _ hsep).trans (hi _ _ _ hitem)
  | again hsep hitem _ _ ih =>
      have hround := (hs _ _ _ hsep).trans (hi _ _ _ hitem)
      exact hround.trans ih

theorem oneOrMore {p : Parser σ α} (hp : Consumes p) : Consumes p.oneOrMore := by
  intro c vs rest h
  obtain ⟨v, mid, vs', hfirst, hrounds, _⟩ := oneOrMore_success.mp h
  exact (hp _ _ _ hfirst).trans (hp.rounds hrounds)

theorem zeroOrMore {p : Parser σ α} (hp : Consumes p) : Consumes p.zeroOrMore :=
  hp.oneOrMore.orElse consumes_emptyList

theorem separatedList {item : Parser σ α} {separator : Parser σ β} (hi : Consumes item)
    (hs : Consumes separator) : Consumes (item.separatedList separator) := by
  intro c vs rest h
  obtain ⟨v, mid, vs', hfirst, hrounds, _⟩ := separatedList_success.mp h
  exact (hi _ _ _ hfirst).trans (hs.separatedRounds hi hrounds)

end Consumes

end Parser

namespace Grammar

variable {σ τ κ : Type} [Cursor σ τ] [Describe τ] [BEq τ]
  {interpret : κ → σ → Outcome σ (Value τ)} {rules : Rules τ κ}

/-- A function on cursors has to consume; the combinators do so by themselves. -/
def NodeConsumes (interpret : κ → σ → Outcome σ (Value τ)) : Grammar τ κ → Prop
  | custom k => Parser.Consumes (Parser.ofFunction (interpret k))
  | _ => True

theorem denote_consumes {env : String → Parser σ (Value τ)}
    (henv : ∀ name c v rest, (env name).Returns c (.success v rest) →
      ∃ body, rules.lookup name = some body
        ∧ (Everywhere rules (NodeConsumes interpret) body → Reaches c rest))
    (g : Grammar τ κ) (hg : Everywhere rules (NodeConsumes interpret) g) :
    Parser.Consumes (g.denote interpret env) := by
  -- Each node is its combinator's lemma; only a reference asks for what is known of `env`.
  induction g with
  | satisfy expected accept => exact (Parser.consumes_satisfy expected accept).map _
  | token t => exact (Parser.consumes_satisfy _ _).map _
  | anyToken => exact (Parser.consumes_satisfy _ _).map _
  | endOfInput => exact Parser.consumes_endOfInput.map _
  | emptyList => exact Parser.consumes_emptyList.map _
  | pure v => exact Parser.consumes_pure v
  | map g f ih => exact ((ih hg.part).map f).evaluate
  | apply call f a ihf iha =>
      have hf := ihf hg.part
      have ha := iha hg.part
      exact ((hf.map call).apply ha).evaluate
  | both a b iha ihb => exact ((iha hg.part).both (ihb hg.part)).map _
  | left a b iha ihb => exact (iha hg.part).left (ihb hg.part)
  | right a b iha ihb => exact (iha hg.part).right (ihb hg.part)
  | between o b e iho ihb ihe =>
      have ho := iho hg.part
      have hb := ihb hg.part
      have he := ihe hg.part
      exact ho.between hb he
  | orElse a b iha ihb => exact (iha hg.part).orElse (ihb hg.part)
  | optional g fallback ih => exact (ih hg.part).optional fallback
  | oneOrMore g ih => exact (ih hg.part).oneOrMore.map _
  | zeroOrMore g ih => exact (ih hg.part).zeroOrMore.map _
  | separatedList item separator ihi ihs =>
      have hi := ihi hg.part
      have hs := ihs hg.part
      exact (hi.separatedList hs).map _
  | filter g accept text ih => exact (ih hg.part).filter accept text
  | label g expected ih => exact (ih hg.part).label expected
  | spanned g ih => exact (ih hg.part).spanned.map _
  | rule name =>
      intro c v rest h
      obtain ⟨body, hbody, hreads⟩ := henv name c v rest h
      exact hreads (hg.rule hbody)
  | custom k => exact hg.here

/-- Every grammar consumes whose functions on cursors do. -/
theorem parser_consumes {g : Grammar τ κ} (hg : Everywhere rules (NodeConsumes interpret) g) :
    Parser.Consumes (g.parser interpret rules) := by
  intro c v rest h
  exact success_induction (R := fun _ c _ rest => Reaches c rest)
    (fun _ henv g hg => denote_consumes henv g hg) hg h

/-- A composed grammar consumes. -/
theorem Composed.consumes {g : Grammar τ κ} (hg : Composed rules g) :
    Parser.Consumes (g.parser interpret rules) := by
  refine parser_consumes fun k hk => ?_
  have hcombinator := hg k hk
  cases k with
  | custom k => exact hcombinator.elim
  | _ => trivial

end Grammar

/-! ## The consumption law -/

section ConsumptionLaw

variable {σ τ φ κ : Type} [SourceCursor σ τ φ] [LawfulCursor σ τ] [TokenSource φ τ]
  [LawfulSource σ τ φ] [Describe τ] [BEq τ]

open SourceCursor Cursor

/-- **The consumption law.** If a grammar succeeds on a cursor, the cursor behind it is reached by
reading some tokens. It belongs to the same source, its position is further by the number of those
tokens and not behind the end, and what had been left of the source is those tokens followed by
what is left now. -/
theorem Grammar.success_consumes (interpret : κ → σ → Outcome σ (Value τ)) (rules : Rules τ κ)
    (g : Grammar τ κ) (hg : Grammar.Everywhere rules (Grammar.NodeConsumes interpret) g)
    (c : σ) (v : Value τ) (rest : σ)
    (h : (g.parser interpret rules).Returns c (.success v rest)) :
    ∃ ts : List τ, Reads c ts rest
      ∧ source rest = source c
      ∧ position rest = position c + ts.length
      ∧ position rest ≤ sourceLength c
      ∧ tokens (remaining c) = ts ++ tokens (remaining rest) := by
  obtain ⟨ts, hts⟩ := Grammar.parser_consumes hg c v rest h
  have hsource : source rest = source c := hts.source_eq
  have hbound : position rest ≤ sourceLength c := by
    rw [LawfulSource.sourceLength_eq, ← hsource]
    exact LawfulSource.position_le rest
  have htokens : tokens (remaining c) = ts ++ tokens (remaining rest) := by
    rw [← LawfulSource.upcoming_eq_tokens, ← LawfulSource.upcoming_eq_tokens]
    exact hts.upcoming_eq
  exact ⟨ts, hts, hsource, hts.position_eq, hbound, htokens⟩

end ConsumptionLaw

/-- Whether a routine stays where it is or reads on; the others look for a place of their own. -/
def Routine.readsOn : Routine → Bool
  | rewind | jump _ => false
  | _ => true

/-- The routines that read on consume. -/
theorem Routine.consumes {σ τ φ : Type} [SourceCursor σ τ φ] [Token τ] {r : Routine}
    (hr : r.readsOn = true) :
    Parser.Consumes (Parser.ofFunction (r.run : σ → Outcome σ (Value τ))) := by
  intro c v rest h
  rw [Parser.returns_ofFunction] at h
  cases r with
  | rewind | jump => cases hr
  | fail | failAt => cases h
  | position | atEnd =>
      cases h
      exact .refl c
  | peek =>
      -- A look at the next token does not read it.
      simp only [Routine.run] at h
      split at h <;> (cases h; exact .refl c)
  | number =>
      simp only [Routine.run] at h
      split at h
      · cases h
      · rename_i t mid hnext
        split at h <;> cases h
        exact .next hnext
  | pair =>
      simp only [Routine.run] at h
      split at h
      · cases h
      · rename_i a mid hfirst
        split at h <;> cases h
        rename_i b hsecond
        exact (Reaches.next hfirst).trans (.next hsecond)

/-- Balanced parentheses, as a rule that refers to itself. -/
def nestRules (κ : Type) : Rules Char κ :=
  [("nest", .optional (.between (.token '(') (.rule "nest") (.token ')')) .unit)]

/-- The consumption law where a recursive rule gives back an unclosed parenthesis and a routine
takes it: on a text, and on tokens of which the first one has been passed over. -/
theorem Grammar.success_consumes_nest :
    (∃ ts : List Char,
      Reads (TextCursor.start "()(a") ts (Cursor.advance 4 (TextCursor.start "()(a"))
      ∧ (TextCursor.start "()(a").remaining.toList
        = ts ++ (Cursor.advance 4 (TextCursor.start "()(a")).remaining.toList)
    ∧ ∃ ts : List Char, Reads (.valid #['x', '(', ')', '(', 'a', 'b'] 1 : TokenCursor Char) ts
        (.valid #['x', '(', ')', '(', 'a', 'b'] 5)
      ∧ 5 = 1 + ts.length := by
  let g : Grammar Char Unit := .both (.rule "nest") (.custom ())
  have hnode : ∀ (σ φ : Type) [SourceCursor σ Char φ],
      Grammar.Everywhere (nestRules Unit)
        (Grammar.NodeConsumes fun _ => (Routine.run Routine.pair : σ → _)) g := by
    intro σ φ _ k _
    cases k with
    | custom k => exact Routine.consumes rfl
    | _ => trivial
  constructor
  · obtain ⟨ts, hreads, _, _, _, htokens⟩ := Grammar.success_consumes
      (fun _ => Routine.run Routine.pair) (nestRules Unit) g (hnode _ _)
      (TextCursor.start "()(a") (.pair .unit (.pair (.element '(') (.element 'a')))
      (Cursor.advance 4 (TextCursor.start "()(a")) ⟨5, rfl⟩
    exact ⟨ts, hreads, htokens⟩
  · obtain ⟨ts, hreads, _, hposition, _, _⟩ := Grammar.success_consumes
      (fun _ => Routine.run Routine.pair) (nestRules Unit) g (hnode _ _)
      (TokenCursor.valid #['x', '(', ')', '(', 'a', 'b'] 1)
      (.pair .unit (.pair (.element '(') (.element 'a')))
      (TokenCursor.valid #['x', '(', ')', '(', 'a', 'b'] 5) ⟨5, rfl⟩
    exact ⟨ts, hreads, hposition⟩

end ParserKit

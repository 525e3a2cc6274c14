import ParserKit.Proofs.Consumption

set_option autoImplicit false

/-! # Errors tell the truth

An error is made at a cursor and is true there: that the input has ended, that another token stands
there, or that a test of the grammar was not passed (`ArisesAt`). Later it is handed on, replaced or
forgotten, but never changed. So every error that comes out arose at a cursor which was reached from
the start (`Parser.Reports`), and what it says can be checked against the source.
-/

namespace ParserKit

open Cursor

section Errors

variable {σ τ : Type} [Cursor σ τ] [Describe τ]

/-- What an error says is the case at the cursor `c`; an error with a text of its own has one of the
texts in `Says`. -/
inductive ArisesAt (Says : String → Prop) (c : σ) : ParseError → Prop where
  | endOfInput {expected : String} (h : next? c = none) :
      ArisesAt Says c (.endOfInput expected (position c))
  | unexpected {expected : String} {t : τ} {rest : σ} (h : next? c = some (t, rest)) :
      ArisesAt Says c (.unexpected expected (describe t) (position c))
  | message {text : String} (h : Says text) : ArisesAt Says c (.message text (position c))

/-- The error arose at a cursor that is reached from `c`. -/
def ArisesFrom (Says : String → Prop) (c : σ) (e : ParseError) : Prop :=
  ∃ c', Reaches c c' ∧ ArisesAt Says c' e

variable {Says : String → Prop}

theorem ArisesAt.position_eq {c : σ} {e : ParseError} (h : ArisesAt Says c e) :
    e.position = position c := by
  cases h <;> rfl

theorem ArisesAt.arisesFrom {c : σ} {e : ParseError} (h : ArisesAt Says c e) :
    ArisesFrom Says c e := ⟨c, .refl c, h⟩

/-- What arose behind a cursor arose behind every cursor from which that one is reached. -/
theorem ArisesFrom.of_reaches {c mid : σ} {e : ParseError} (h : ArisesFrom Says mid e)
    (hmid : Reaches c mid) : ArisesFrom Says c e := by
  obtain ⟨c', hc', he⟩ := h
  exact ⟨c', hmid.trans hc', he⟩

namespace Parser

variable {α β γ : Type}

/-! ## Combinators -/

/-- The successes of `p` end at cursors that are reached, and its errors arose at such cursors. -/
structure Reports (Says : String → Prop) (p : Parser σ α) : Prop where
  consumes : Consumes p
  errors : ∀ c e, p.Returns c (.failure e) → ArisesFrom Says c e

theorem reports_satisfy (expected : String) (accept : τ → Bool) :
    Reports Says (satisfy expected accept : Parser σ τ) := by
  refine ⟨consumes_satisfy expected accept, fun c e h => ?_⟩
  rcases satisfy_failure.mp h with ⟨hnext, rfl⟩ | ⟨t, rest, hnext, _, rfl⟩
  · exact (ArisesAt.endOfInput hnext).arisesFrom
  · exact (ArisesAt.unexpected hnext).arisesFrom

theorem reports_endOfInput : Reports Says (endOfInput : Parser σ Unit) := by
  refine ⟨consumes_endOfInput, fun c e h => ?_⟩
  obtain ⟨t, rest, hnext, rfl⟩ := endOfInput_failure.mp h
  exact (ArisesAt.unexpected hnext).arisesFrom

/-- A parser that never fails has no errors. -/
theorem Consumes.reports {p : Parser σ α} (hp : Consumes p)
    (hnever : ∀ c e, ¬ p.Returns c (.failure e)) : Reports Says p :=
  ⟨hp, fun c e h => absurd h (hnever c e)⟩

theorem reports_pure (v : α) : Reports Says (Parser.pure v : Parser σ α) :=
  (consumes_pure v).reports fun _ _ => by simp

theorem reports_emptyList : Reports Says (emptyList : Parser σ (List α)) :=
  consumes_emptyList.reports fun _ _ => by simp

namespace Reports

theorem map {p : Parser σ α} (hp : Reports Says p) (f : α → β) : Reports Says (p.map f) :=
  ⟨hp.consumes.map f, fun c e h => hp.errors c e (map_failure.mp h)⟩

theorem evaluate {p : Parser σ (Except Fault α)} (hp : Reports Says p) :
    Reports Says p.evaluate :=
  ⟨hp.consumes.evaluate, fun c e h => hp.errors c e (evaluate_failure.mp h)⟩

/-- The error of a sequence is that of the first part, or that of the second behind the first. -/
theorem sequence {p : Parser σ α} {q : Parser σ β} (hp : Reports Says p) (hq : Reports Says q)
    {c : σ} {e : ParseError}
    (h : p.Returns c (.failure e)
      ∨ ∃ a mid, p.Returns c (.success a mid) ∧ q.Returns mid (.failure e)) :
    ArisesFrom Says c e := by
  rcases h with h | ⟨a, mid, ha, h⟩
  · exact hp.errors c e h
  · exact (hq.errors mid e h).of_reaches (hp.consumes c a mid ha)

theorem apply {f : Parser σ (α → β)} {a : Parser σ α} (hf : Reports Says f)
    (ha : Reports Says a) : Reports Says (f.apply a) :=
  ⟨hf.consumes.apply ha.consumes, fun _ _ h => hf.sequence ha (apply_failure.mp h)⟩

theorem both {p : Parser σ α} {q : Parser σ β} (hp : Reports Says p) (hq : Reports Says q) :
    Reports Says (p.both q) :=
  ⟨hp.consumes.both hq.consumes, fun _ _ h => hp.sequence hq (both_failure.mp h)⟩

theorem left {p : Parser σ α} {q : Parser σ β} (hp : Reports Says p) (hq : Reports Says q) :
    Reports Says (p.left q) :=
  ⟨hp.consumes.left hq.consumes, fun _ _ h => hp.sequence hq (left_failure.mp h)⟩

theorem right {p : Parser σ α} {q : Parser σ β} (hp : Reports Says p) (hq : Reports Says q) :
    Reports Says (p.right q) :=
  ⟨hp.consumes.right hq.consumes, fun _ _ h => hp.sequence hq (right_failure.mp h)⟩

theorem between {opening : Parser σ α} {body : Parser σ β} {closing : Parser σ γ}
    (ho : Reports Says opening) (hb : Reports Says body) (hc : Reports Says closing) :
    Reports Says (Parser.between opening body closing) := by
  refine ⟨ho.consumes.between hb.consumes hc.consumes, fun c e h => ?_⟩
  rcases between_failure.mp h with h | ⟨a, mid, ha, h⟩
  · exact ho.errors c e h
  · exact (hb.sequence hc h).of_reaches (ho.consumes c a mid ha)

/-- The error of a choice is that of its second alternative, which was run on the same cursor. -/
theorem orElse {p q : Parser σ α} (hp : Reports Says p) (hq : Reports Says q) :
    Reports Says (p.orElse q) := by
  refine ⟨hp.consumes.orElse hq.consumes, fun c e h => ?_⟩
  obtain ⟨_, _, h⟩ := orElse_failure.mp h
  exact hq.errors c e h

theorem optional {p : Parser σ α} (hp : Reports Says p) (fallback : α) :
    Reports Says (p.optional fallback) := hp.orElse (reports_pure fallback)

theorem filter {p : Parser σ α} (hp : Reports Says p) (accept : α → Bool) {text : String}
    (htext : Says text) : Reports Says (p.filter accept text) := by
  refine ⟨hp.consumes.filter accept text, fun c e h => ?_⟩
  rcases filter_failure.mp h with h | ⟨v, mid, _, _, rfl⟩
  -- A refusal is reported where the filter was run, not behind what it refused.
  · exact hp.errors c e h
  · exact (ArisesAt.message htext).arisesFrom

/-- A label makes an error of its own, whatever the error was. -/
theorem label {p : Parser σ α} (hp : Reports Says p) (expected : String) :
    Reports Says (p.label expected) := by
  refine ⟨hp.consumes.label expected, fun c e h => ?_⟩
  rcases (label_failure.mp h).2 with ⟨hnext, rfl⟩ | ⟨t, rest, hnext, rfl⟩
  · exact (ArisesAt.endOfInput hnext).arisesFrom
  · exact (ArisesAt.unexpected hnext).arisesFrom

theorem spanned {p : Parser σ α} (hp : Reports Says p) : Reports Says p.spanned :=
  ⟨hp.consumes.spanned, fun c e h => hp.errors c e (spanned_failure.mp h)⟩

theorem oneOrMore {p : Parser σ α} (hp : Reports Says p) : Reports Says p.oneOrMore :=
  ⟨hp.consumes.oneOrMore, fun c e h => hp.errors c e (oneOrMore_failure.mp h)⟩

theorem zeroOrMore {p : Parser σ α} (hp : Reports Says p) : Reports Says p.zeroOrMore :=
  hp.oneOrMore.orElse reports_emptyList

theorem separatedList {item : Parser σ α} {separator : Parser σ β} (hi : Reports Says item)
    (hs : Reports Says separator) : Reports Says (item.separatedList separator) :=
  ⟨hi.consumes.separatedList hs.consumes,
    fun c e h => hi.errors c e (separatedList_failure.mp h)⟩

end Reports

end Parser

end Errors

/-! ## Grammars -/

namespace Grammar

section Texts

variable {τ κ : Type} {rules : Rules τ κ}

/-- A filter has one of the texts in `Says`. Nothing is known of functions on cursors, so there may
be none. -/
def NodeReports (Says : String → Prop) : Grammar τ κ → Prop
  | filter _ _ text => Says text
  | custom _ => False
  | _ => True

/-- The text of a filter that the grammar or one of the rules that it reaches is made of. -/
def FilterText (rules : Rules τ κ) (g : Grammar τ κ) (text : String) : Prop :=
  ∃ body accept, Occurs rules (.filter body accept text) g

theorem Composed.nodeReports {g : Grammar τ κ} (hg : Composed rules g) :
    Everywhere rules (NodeReports (FilterText rules g)) g := by
  intro k hk
  have hcombinator := hg k hk
  cases k with
  | filter body accept text => exact ⟨body, accept, hk⟩
  | custom k => exact hcombinator
  | _ => trivial

end Texts

variable {σ τ κ : Type} [Cursor σ τ] [Describe τ] [BEq τ]
  {interpret : κ → σ → Outcome σ (Value τ)} {rules : Rules τ κ} {Says : String → Prop}

/-- What an outcome owes to the cursor on which the parser was run. -/
def OutcomeReports (Says : String → Prop) (c : σ) : Outcome σ (Value τ) → Prop
  | .success _ rest => Reaches c rest
  | .failure e => ArisesFrom Says c e

theorem denote_reports {env : String → Parser σ (Value τ)}
    (henv : ∀ name c o, (env name).Returns c o →
      ∃ body, rules.lookup name = some body
        ∧ (Everywhere rules (NodeReports Says) body → OutcomeReports Says c o))
    (g : Grammar τ κ) (hg : Everywhere rules (NodeReports Says) g) :
    Parser.Reports Says (g.denote interpret env) := by
  induction g with
  | satisfy expected accept => exact (Parser.reports_satisfy expected accept).map _
  | token t => exact (Parser.reports_satisfy _ _).map _
  | anyToken => exact (Parser.reports_satisfy _ _).map _
  | endOfInput => exact Parser.reports_endOfInput.map _
  | emptyList => exact Parser.reports_emptyList.map _
  | pure v => exact Parser.reports_pure v
  | map g f ih => exact ((ih hg.part).map f).evaluate
  | apply call f a ihf iha =>
      have hf := ihf hg.part
      have ha := iha hg.part
      exact ((hf.map call).apply ha).evaluate
  | both a b iha ihb => exact ((iha hg.part).both (ihb hg.part)).map _
  | left a b iha ihb => exact (iha hg.part).left (ihb hg.part)
  | right a b iha ihb => exact (iha hg.part).right (ihb hg.part)
  | between o b e iho ihb ihe =>
      have ho := iho hg.part
      have hb := ihb hg.part
      have he := ihe hg.part
      exact ho.between hb he
  | orElse a b iha ihb => exact (iha hg.part).orElse (ihb hg.part)
  | optional g fallback ih => exact (ih hg.part).optional fallback
  | oneOrMore g ih => exact (ih hg.part).oneOrMore.map _
  | zeroOrMore g ih => exact (ih hg.part).zeroOrMore.map _
  | separatedList item separator ihi ihs =>
      have hi := ihi hg.part
      have hs := ihs hg.part
      exact (hi.separatedList hs).map _
  | filter g accept text ih => exact (ih hg.part).filter accept hg.here
  | label g expected ih => exact (ih hg.part).label expected
  | spanned g ih => exact (ih hg.part).spanned.map _
  | rule name =>
      have hrule : ∀ c o, (env name).Returns c o → OutcomeReports Says c o := by
        intro c o h
        obtain ⟨body, hbody, hreports⟩ := henv name c o h
        exact hreports (hg.rule hbody)
      exact ⟨fun c v rest h => hrule c _ h, fun c e h => hrule c _ h⟩
  | custom k => exact hg.here.elim

/-- Every error of a grammar arose at a cursor that was reached, and its text is that of a filter if
it has one of its own. -/
theorem parser_errors {g : Grammar τ κ} (hg : Everywhere rules (NodeReports Says) g) {c : σ}
    {e : ParseError} (h : (g.parser interpret rules).Returns c (.failure e)) :
    ArisesFrom Says c e := by
  refine returns_induction (Q := fun g c o => Everywhere rules (NodeReports Says) g →
    OutcomeReports Says c o) ?_ h hg
  intro env henv g c o hreturns hg
  have hreports : Parser.Reports Says (g.denote interpret env) := denote_reports henv g hg
  cases o with
  | success v rest => exact hreports.consumes c v rest hreturns
  | failure e => exact hreports.errors c e hreturns

end Grammar

/-! ## What an error says of the source -/

/-- What the error says of a source is true of one with the tokens `ts`: that it ends there, or that
the token found stands there. A text of its own says nothing of the source. -/
def ParseError.TrueOf {τ : Type} [Describe τ] (ts : List τ) : ParseError → Prop
  | endOfInput _ n => n = ts.length
  | unexpected _ found n => ∃ h : n < ts.length, found = describe ts[n]
  | message _ _ => True

section Sources

variable {σ τ φ κ : Type} [SourceCursor σ τ φ] [LawfulCursor σ τ] [TokenSource φ τ]
  [LawfulSource σ τ φ] [Describe τ]

theorem ArisesAt.trueOf {Says : String → Prop} {c : σ} {e : ParseError}
    (h : ArisesAt Says c e) : e.TrueOf (tokens (SourceCursor.source c)) := by
  cases h with
  | endOfInput hnext => exact LawfulSource.position_eq_length hnext
  | unexpected hnext =>
      obtain ⟨hlt, ht⟩ := List.getElem?_eq_some_iff.mp (LawfulSource.getElem?_position hnext)
      exact ⟨hlt, by rw [ht]⟩
  | message _ => trivial

variable [BEq τ]

/-- **Errors tell the truth.** If a composed grammar fails on a cursor, the position of the error is
not before the cursor and not behind the end of the source. If the error is that the input has ended,
its position is the end; if it is that something else was found, the token at its position is the
one that was found; and if it has a text of its own, that is the text of a filter which the grammar
or one of the rules that it reaches is made of. -/
theorem Grammar.failure_truthful (interpret : κ → σ → Outcome σ (Value τ)) (rules : Rules τ κ)
    (g : Grammar τ κ) (hg : Grammar.Composed rules g) (c : σ) (e : ParseError)
    (h : (g.parser interpret rules).Returns c (.failure e)) :
    position c ≤ e.position
      ∧ e.position ≤ (tokens (SourceCursor.source c)).length
      ∧ e.TrueOf (tokens (SourceCursor.source c))
      ∧ ∀ text n, e = .message text n → Grammar.FilterText rules g text := by
  obtain ⟨c', hc', he⟩ := Grammar.parser_errors hg.nodeReports h
  -- All that is said holds at the cursor `c'`, which is a place in the same source.
  have hsource : SourceCursor.source c' = SourceCursor.source c := hc'.source_eq
  rw [he.position_eq, ← hsource]
  refine ⟨hc'.position_le, LawfulSource.position_le c', he.trueOf, ?_⟩
  rintro text n rfl
  cases he with
  | message htext => exact htext

end Sources

/-- A digit in one or more pairs of parentheses; a filter looks for the closing ones. -/
def digitRules (κ : Type) : Rules Char κ :=
  [("digit", .between (.token '(')
    (.orElse (.satisfy "digit" Char.isDigit) (.rule "digit"))
    (.filter .anyToken (fun | .element t => t == ')' | _ => false) "not closed"))]

/-- Errors from inside a recursive rule: a test that was not passed, an end of the input and, on
tokens of which one has been passed over, a letter in place of a parenthesis. -/
theorem Grammar.failure_truthful_digits :
    Grammar.FilterText (digitRules Empty) (.rule "digit") "not closed"
      ∧ (ParseError.endOfInput "anything" 3).TrueOf "((1".toList
      ∧ (ParseError.unexpected "'('" "'y'" 3).TrueOf ['x', '(', '(', 'y', ')'] := by
  have hcomposed := Grammar.composed_of_empty (digitRules Empty) (.rule "digit")
  refine ⟨?_, ?_, ?_⟩
  · obtain ⟨_, _, _, htext⟩ := Grammar.failure_truthful Empty.elim (digitRules Empty)
      (.rule "digit") hcomposed (TextCursor.start "((1]") (.message "not closed" 3) ⟨4, rfl⟩
    exact htext _ _ rfl
  · obtain ⟨_, _, htrue, _⟩ := Grammar.failure_truthful Empty.elim (digitRules Empty)
      (.rule "digit") hcomposed (TextCursor.start "((1") (.endOfInput "anything" 3) ⟨4, rfl⟩
    exact htrue
  · obtain ⟨_, _, htrue, _⟩ := Grammar.failure_truthful Empty.elim (digitRules Empty)
      (.rule "digit") hcomposed (TokenCursor.valid #['x', '(', '(', 'y', ')'] 1)
      (.unexpected "'('" "'y'" 3) ⟨4, rfl⟩
    exact htrue

end ParserKit

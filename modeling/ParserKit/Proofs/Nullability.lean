import ParserKit.Proofs.Consumption

set_option autoImplicit false

/-! # Grammars that may read nothing

`Nullable` is the syntactic estimate of which grammars can succeed without reading a token. It errs
on one side only: a grammar that does succeed in place is nullable (`Grammar.Composed.movesUnless`).
So behind a part of a sequence that is not nullable there are fewer tokens left than before it.
-/

namespace ParserKit

open Cursor

/-- A grammar that may succeed without reading anything, as far as its nodes tell. For references
this is the least such estimate. -/
inductive Grammar.Nullable {τ κ : Type} (rules : Rules τ κ) : Grammar τ κ → Prop where
  | endOfInput : Nullable rules .endOfInput
  | emptyList : Nullable rules .emptyList
  | pure {v : Value τ} : Nullable rules (.pure v)
  | map {g : Grammar τ κ} {f : Value τ → Except Fault (Value τ)} (hg : Nullable rules g) :
      Nullable rules (.map g f)
  | apply {call : Value τ → Value τ → Except Fault (Value τ)} {f a : Grammar τ κ}
      (hf : Nullable rules f) (ha : Nullable rules a) : Nullable rules (.apply call f a)
  | both {a b : Grammar τ κ} (ha : Nullable rules a) (hb : Nullable rules b) :
      Nullable rules (.both a b)
  | left {a b : Grammar τ κ} (ha : Nullable rules a) (hb : Nullable rules b) :
      Nullable rules (.left a b)
  | right {a b : Grammar τ κ} (ha : Nullable rules a) (hb : Nullable rules b) :
      Nullable rules (.right a b)
  | between {a b e : Grammar τ κ} (ha : Nullable rules a) (hb : Nullable rules b)
      (he : Nullable rules e) : Nullable rules (.between a b e)
  | orElseFirst {a b : Grammar τ κ} (ha : Nullable rules a) : Nullable rules (.orElse a b)
  | orElseSecond {a b : Grammar τ κ} (hb : Nullable rules b) : Nullable rules (.orElse a b)
  | optional {g : Grammar τ κ} {fallback : Value τ} : Nullable rules (.optional g fallback)
  | oneOrMore {g : Grammar τ κ} (hg : Nullable rules g) : Nullable rules (.oneOrMore g)
  | zeroOrMore {g : Grammar τ κ} : Nullable rules (.zeroOrMore g)
  | separatedList {item separator : Grammar τ κ} (hi : Nullable rules item) :
      Nullable rules (.separatedList item separator)
  | filter {g : Grammar τ κ} {accept : Value τ → Bool} {text : String} (hg : Nullable rules g) :
      Nullable rules (.filter g accept text)
  | label {g : Grammar τ κ} {expected : String} (hg : Nullable rules g) :
      Nullable rules (.label g expected)
  | spanned {g : Grammar τ κ} (hg : Nullable rules g) : Nullable rules (.spanned g)
  | rule {name : String} {body : Grammar τ κ} (hbody : rules.lookup name = some body)
      (h : Nullable rules body) : Nullable rules (.rule name)

/-! ## Moving -/

section Moves

variable {σ τ : Type} [Cursor σ τ]

/-- The cursor `rest` is reached from `c`, and it is another one unless `P` holds. -/
def Moves (P : Prop) (c rest : σ) : Prop := Reaches c rest ∧ (rest = c → P)

theorem Reaches.moves {c rest : σ} (h : Reaches c rest) : Moves True c rest :=
  ⟨h, fun _ => trivial⟩

namespace Moves

variable {P Q : Prop} {c mid rest : σ}

theorem stay (c : σ) : Moves True c c := (Reaches.refl c).moves

theorem mono (h : Moves P c rest) (hPQ : P → Q) : Moves Q c rest :=
  ⟨h.1, fun hrest => hPQ (h.2 hrest)⟩

variable [LawfulCursor σ τ]

theorem next {t : τ} (h : next? c = some (t, rest)) : Moves False c rest := by
  refine ⟨.next h, ?_⟩
  rintro rfl
  have hmove := LawfulCursor.position_next h
  omega

/-- Two stretches together stay in place only if each of them does. -/
theorem trans (h : Moves P c mid) (h' : Moves Q mid rest) : Moves (P ∧ Q) c rest := by
  refine ⟨h.1.trans h'.1, ?_⟩
  -- To come back to `c` from `mid` is to have been there.
  rintro rfl
  obtain rfl : mid = rest := h.1.eq_of_position_le h'.1.position_le
  exact ⟨h.2 rfl, h'.2 rfl⟩

/-- What follows a stretch cannot bring it back. -/
theorem reaches (h : Moves P c mid) (h' : Reaches mid rest) : Moves P c rest :=
  (h.trans h'.moves).mono And.left

end Moves

end Moves

namespace Parser

variable {σ τ α β γ : Type} [Cursor σ τ]

/-- Every success of `p` moves, unless `P` holds. -/
def MovesUnless (P : Prop) (p : Parser σ α) : Prop :=
  ∀ (c : σ) (v : α) (rest : σ), p.Returns c (.success v rest) → Moves P c rest

theorem Consumes.movesUnless {p : Parser σ α} (hp : Consumes p) : MovesUnless True p :=
  fun c v rest h => (hp c v rest h).moves

namespace MovesUnless

variable {P Q R : Prop}

theorem mono {p : Parser σ α} (hp : MovesUnless P p) (hPQ : P → Q) : MovesUnless Q p :=
  fun c v rest h => (hp c v rest h).mono hPQ

theorem consumes {p : Parser σ α} (hp : MovesUnless P p) : Consumes p :=
  fun c v rest h => (hp c v rest h).1

theorem map {p : Parser σ α} (hp : MovesUnless P p) (f : α → β) : MovesUnless P (p.map f) := by
  intro c w rest h
  obtain ⟨v, hv, _⟩ := map_success.mp h
  exact hp _ _ _ hv

theorem evaluate {p : Parser σ (Except Fault α)} (hp : MovesUnless P p) :
    MovesUnless P p.evaluate := by
  intro c v rest h
  exact hp _ _ _ (evaluate_success.mp h)

theorem filter {p : Parser σ α} (hp : MovesUnless P p) (accept : α → Bool) (text : String) :
    MovesUnless P (p.filter accept text) := by
  intro c v rest h
  exact hp _ _ _ (filter_success.mp h).1

theorem label [Describe τ] {p : Parser σ α} (hp : MovesUnless P p) (expected : String) :
    MovesUnless P (p.label expected) := by
  intro c v rest h
  exact hp _ _ _ (label_success.mp h)

theorem spanned {p : Parser σ α} (hp : MovesUnless P p) : MovesUnless P p.spanned := by
  intro c w rest h
  exact hp _ _ _ (spanned_success.mp h).1

theorem orElse {p q : Parser σ α} (hp : MovesUnless P p) (hq : MovesUnless Q q) :
    MovesUnless (P ∨ Q) (p.orElse q) := by
  intro c v rest h
  rcases orElse_success.mp h with h | ⟨e, _, h⟩
  · exact (hp _ _ _ h).mono Or.inl
  · exact (hq _ _ _ h).mono Or.inr

variable [LawfulCursor σ τ]

theorem satisfy [Describe τ] (expected : String) (accept : τ → Bool) :
    MovesUnless False (satisfy expected accept : Parser σ τ) := by
  intro c t rest h
  exact .next (satisfy_success.mp h).1

theorem apply {f : Parser σ (α → β)} {a : Parser σ α} (hf : MovesUnless P f)
    (ha : MovesUnless Q a) : MovesUnless (P ∧ Q) (f.apply a) := by
  intro c w rest h
  obtain ⟨g, mid, v, hg, hv, _⟩ := apply_success.mp h
  exact (hf _ _ _ hg).trans (ha _ _ _ hv)

theorem both {p : Parser σ α} {q : Parser σ β} (hp : MovesUnless P p) (hq : MovesUnless Q q) :
    MovesUnless (P ∧ Q) (p.both q) := by
  intro c w rest h
  obtain ⟨mid, ha, hb⟩ := both_success.mp h
  exact (hp _ _ _ ha).trans (hq _ _ _ hb)

theorem left {p : Parser σ α} {q : Parser σ β} (hp : MovesUnless P p) (hq : MovesUnless Q q) :
    MovesUnless (P ∧ Q) (p.left q) := by
  intro c v rest h
  obtain ⟨b, mid, ha, hb⟩ := left_success.mp h
  exact (hp _ _ _ ha).trans (hq _ _ _ hb)

theorem right {p : Parser σ α} {q : Parser σ β} (hp : MovesUnless P p) (hq : MovesUnless Q q) :
    MovesUnless (P ∧ Q) (p.right q) := by
  intro c v rest h
  obtain ⟨a, mid, ha, hb⟩ := right_success.mp h
  exact (hp _ _ _ ha).trans (hq _ _ _ hb)

theorem between {opening : Parser σ α} {body : Parser σ β} {closing : Parser σ γ}
    (ho : MovesUnless P opening) (hb : MovesUnless Q body) (hc : MovesUnless R closing) :
    MovesUnless (P ∧ Q ∧ R) (Parser.between opening body closing) := by
  intro c v rest h
  obtain ⟨_, mid, _, mid', hopen, hbody, hclose⟩ := between_success.mp h
  exact (ho _ _ _ hopen).trans ((hb _ _ _ hbody).trans (hc _ _ _ hclose))

/-- Only the first round decides: the later ones do not go back. -/
theorem oneOrMore {p : Parser σ α} (hp : MovesUnless P p) : MovesUnless P p.oneOrMore := by
  intro c vs rest h
  obtain ⟨v, mid, vs', hfirst, hrounds, _⟩ := oneOrMore_success.mp h
  exact (hp _ _ _ hfirst).reaches (hp.consumes.rounds hrounds)

theorem separatedList {item : Parser σ α} {separator : Parser σ β} (hi : MovesUnless P item)
    (hs : Consumes separator) : MovesUnless P (item.separatedList separator) := by
  intro c vs rest h
  obtain ⟨v, mid, vs', hfirst, hrounds, _⟩ := separatedList_success.mp h
  exact (hi _ _ _ hfirst).reaches (hs.separatedRounds hi.consumes hrounds)

end MovesUnless

end Parser

/-! ## The estimate errs on one side only -/

namespace Grammar

variable {σ τ κ : Type} [Cursor σ τ] [LawfulCursor σ τ] [Describe τ] [BEq τ]
  {interpret : κ → σ → Outcome σ (Value τ)} {rules : Rules τ κ}

theorem denote_movesUnless {env : String → Parser σ (Value τ)}
    (henv : ∀ name c v rest, (env name).Returns c (.success v rest) →
      ∃ body, rules.lookup name = some body
        ∧ (Composed rules body → Moves (Nullable rules body) c rest))
    (g : Grammar τ κ) (hg : Composed rules g) :
    Parser.MovesUnless (Nullable rules g) (g.denote interpret env) := by
  induction g with
  -- What takes a token always moves.
  | satisfy expected accept => exact ((Parser.MovesUnless.satisfy _ _).map _).mono False.elim
  | token t => exact ((Parser.MovesUnless.satisfy _ _).map _).mono False.elim
  | anyToken => exact ((Parser.MovesUnless.satisfy _ _).map _).mono False.elim
  -- What always may stay is nullable without a condition, so there is nothing to show but reading.
  | endOfInput => exact (Parser.consumes_endOfInput.map _).movesUnless.mono fun _ => .endOfInput
  | emptyList => exact (Parser.consumes_emptyList.map _).movesUnless.mono fun _ => .emptyList
  | pure v => exact (Parser.consumes_pure v).movesUnless.mono fun _ => .pure
  | map g f ih => exact ((ih hg.part).map f).evaluate.mono .map
  | apply call f a ihf iha =>
      have hf := (ihf hg.part).map call
      exact (hf.apply (iha hg.part)).evaluate.mono fun h => .apply h.1 h.2
  | both a b iha ihb =>
      exact (((iha hg.part).both (ihb hg.part)).map _).mono fun h => .both h.1 h.2
  | left a b iha ihb => exact ((iha hg.part).left (ihb hg.part)).mono fun h => .left h.1 h.2
  | right a b iha ihb => exact ((iha hg.part).right (ihb hg.part)).mono fun h => .right h.1 h.2
  | between a b e iha ihb ihe =>
      have hbetween := (iha hg.part).between (ihb hg.part) (ihe hg.part)
      exact hbetween.mono fun h => .between h.1 h.2.1 h.2.2
  | orElse a b iha ihb =>
      refine ((iha hg.part).orElse (ihb hg.part)).mono ?_
      rintro (ha | hb)
      · exact .orElseFirst ha
      · exact .orElseSecond hb
  | optional g fallback ih =>
      exact ((ih hg.part).consumes.optional fallback).movesUnless.mono fun _ => .optional
  | oneOrMore g ih => exact ((ih hg.part).oneOrMore.map _).mono .oneOrMore
  | zeroOrMore g ih =>
      exact ((ih hg.part).consumes.zeroOrMore.map _).movesUnless.mono fun _ => .zeroOrMore
  | separatedList item separator ihi ihs =>
      have hlist := (ihi hg.part).separatedList (ihs hg.part).consumes
      exact (hlist.map _).mono .separatedList
  | filter g accept text ih => exact ((ih hg.part).filter accept text).mono .filter
  | label g expected ih => exact ((ih hg.part).label expected).mono .label
  | spanned g ih => exact ((ih hg.part).spanned.map _).mono .spanned
  | rule name =>
      intro c v rest h
      obtain ⟨body, hbody, hmoves⟩ := henv name c v rest h
      exact (hmoves (hg.rule hbody)).mono (.rule hbody)
  | custom k => exact hg.here.elim

/-- **A grammar that is not nullable moves.** -/
theorem Composed.movesUnless {g : Grammar τ κ} (hg : Composed rules g) :
    Parser.MovesUnless (Nullable rules g) (g.parser interpret rules) := by
  intro c v rest h
  exact success_induction (R := fun g c _ rest => Moves (Nullable rules g) c rest)
    (fun _ henv g hg => denote_movesUnless henv g hg) hg h

end Grammar

end ParserKit

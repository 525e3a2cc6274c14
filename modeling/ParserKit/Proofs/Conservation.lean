import ParserKit.Proofs.Consumption

set_option autoImplicit false

/-! # No token is lost

Some combinators only collect: a token that they read becomes a part of their value, and values are
put next to each other in the order of reading. In a grammar made of these, the tokens that occur in
a value, from left to right, are exactly those that were read for it, none of them lost, doubled or
kept from a branch that was given up. So the value shows the part of the source from the first
cursor to the last (`elements_eq_extract`).
-/

namespace ParserKit

/-! ## The tokens of a value -/

mutual

/-- The tokens that occur in a value, from left to right. -/
def Value.elements {τ : Type} : Value τ → List τ
  | .element t => [t]
  | .list items => elementsAll items
  | .pair a b => a.elements ++ b.elements
  | .function _ arguments => elementsAll arguments
  | .unit | .bool _ | .int _ | .text _ | .span _ | .illTyped => []

/-- The tokens that occur in a list of values. -/
def Value.elementsAll {τ : Type} : List (Value τ) → List τ
  | [] => []
  | v :: items => v.elements ++ elementsAll items

end

namespace Value

variable {τ : Type}

theorem elementsAll_eq (items : List (Value τ)) : elementsAll items = items.flatMap elements := by
  induction items with
  | nil => rfl
  | cons v items ih => rw [elementsAll, ih, List.flatMap_cons]

@[simp] theorem elements_unit : (unit : Value τ).elements = [] := by rw [elements]

@[simp] theorem elements_element (t : τ) : (element t).elements = [t] := by rw [elements]

@[simp] theorem elements_list (items : List (Value τ)) :
    (list items).elements = items.flatMap elements := by
  rw [elements, elementsAll_eq]

@[simp] theorem elements_ofPair (v : Value τ × Value τ) :
    (ofPair v).elements = v.1.elements ++ v.2.elements := by
  rw [ofPair, elements]

@[simp] theorem elements_ofSpanned (v : Value τ × Span) :
    (ofSpanned v).elements = v.1.elements := by
  simp [ofSpanned, elements]

end Value

/-! ## Combinators that collect -/

namespace Parser

variable {σ τ α β : Type} [Cursor σ τ]

/-- Every success of `p` has read exactly the tokens that `shown` finds in its value. -/
def Accounts (shown : α → List τ) (p : Parser σ α) : Prop :=
  ∀ (c : σ) (v : α) (rest : σ), p.Returns c (.success v rest) → Reads c (shown v) rest

theorem accounts_satisfy [Describe τ] (expected : String) (accept : τ → Bool) :
    Accounts (fun t => [t]) (satisfy expected accept : Parser σ τ) := by
  intro c t rest h
  obtain ⟨hnext, _⟩ := satisfy_success.mp h
  exact .cons hnext (.nil rest)

theorem accounts_endOfInput [Describe τ] :
    Accounts (fun _ => []) (endOfInput : Parser σ Unit) := by
  intro c u rest h
  obtain ⟨_, rfl⟩ := endOfInput_success.mp h
  exact .nil rest

theorem accounts_pure {shown : α → List τ} {v : α} (hv : shown v = []) :
    Accounts shown (Parser.pure v : Parser σ α) := by
  intro c w rest h
  cases returns_pure.mp h
  rw [hv]
  exact .nil c

theorem accounts_emptyList {shown : α → List τ} :
    Accounts (fun vs => vs.flatMap shown) (emptyList : Parser σ (List α)) := by
  intro c vs rest h
  cases returns_emptyList.mp h
  exact .nil c

namespace Accounts

variable {shown : α → List τ}

theorem map {p : Parser σ α} (hp : Accounts shown p) {f : α → β} {shown' : β → List τ}
    (hf : ∀ v, shown' (f v) = shown v) : Accounts shown' (p.map f) := by
  intro c w rest h
  obtain ⟨v, hv, rfl⟩ := map_success.mp h
  rw [hf]
  exact hp c v rest hv

theorem both {shown' : β → List τ} {p : Parser σ α} {q : Parser σ β} (hp : Accounts shown p)
    (hq : Accounts shown' q) : Accounts (fun w => shown w.1 ++ shown' w.2) (p.both q) := by
  intro c w rest h
  obtain ⟨mid, ha, hb⟩ := both_success.mp h
  exact (hp _ _ _ ha).append (hq _ _ _ hb)

/-- What the first alternative had read when it failed does not count. -/
theorem orElse {p q : Parser σ α} (hp : Accounts shown p) (hq : Accounts shown q) :
    Accounts shown (p.orElse q) := by
  intro c v rest h
  rcases orElse_success.mp h with h | ⟨e, _, h⟩
  · exact hp c v rest h
  · exact hq c v rest h

theorem optional {p : Parser σ α} (hp : Accounts shown p) {fallback : α}
    (hfallback : shown fallback = []) : Accounts shown (p.optional fallback) :=
  hp.orElse (accounts_pure hfallback)

theorem filter {p : Parser σ α} (hp : Accounts shown p) (accept : α → Bool) (text : String) :
    Accounts shown (p.filter accept text) := by
  intro c v rest h
  exact hp c v rest (filter_success.mp h).1

theorem label [Describe τ] {p : Parser σ α} (hp : Accounts shown p) (expected : String) :
    Accounts shown (p.label expected) := by
  intro c v rest h
  exact hp c v rest (label_success.mp h)

theorem spanned {p : Parser σ α} (hp : Accounts shown p) :
    Accounts (fun w => shown w.1) p.spanned := by
  intro c w rest h
  exact hp c w.1 rest (spanned_success.mp h).1

/-- Each further round adds the tokens that it has read; what stops the rounds reads none. -/
theorem rounds {p : Parser σ α} (hp : Accounts shown p) {previous : Nat} {c rest : σ}
    {vs : List α} (h : Rounds p previous c vs rest) : Reads c (vs.flatMap shown) rest := by
  induction h with
  | still | refused => exact .nil _
  | again _ hround _ ih =>
      rw [List.flatMap_cons]
      exact (hp _ _ _ hround).append ih

theorem oneOrMore {p : Parser σ α} (hp : Accounts shown p) :
    Accounts (fun vs => vs.flatMap shown) p.oneOrMore := by
  intro c vs rest h
  obtain ⟨v, mid, vs', hfirst, hrounds, rfl⟩ := oneOrMore_success.mp h
  show Reads c ((v :: vs').flatMap shown) rest
  rw [List.flatMap_cons]
  exact (hp c v mid hfirst).append (hp.rounds hrounds)

theorem zeroOrMore {p : Parser σ α} (hp : Accounts shown p) :
    Accounts (fun vs => vs.flatMap shown) p.zeroOrMore := hp.oneOrMore.orElse accounts_emptyList

end Accounts

end Parser

/-! ## Grammars that collect -/

namespace Grammar

variable {σ τ κ : Type}

/-- Whether a node puts all that it reads into its value and nothing else: it has a value that it
has not read only if no token occurs in it, and it neither drops nor rewrites values. -/
def isLossless : Grammar τ κ → Bool
  | pure v => v.elements.isEmpty
  | optional _ fallback => fallback.elements.isEmpty
  | map _ _ | apply _ _ _ | left _ _ | right _ _ | between _ _ _ | separatedList _ _ | custom _ =>
    false
  | _ => true

variable [Cursor σ τ] [Describe τ] [BEq τ] {interpret : κ → σ → Outcome σ (Value τ)}
  {rules : Rules τ κ}

theorem denote_accounts {env : String → Parser σ (Value τ)}
    (henv : ∀ name c v rest, (env name).Returns c (.success v rest) →
      ∃ body, rules.lookup name = some body
        ∧ (Everywhere rules (fun k => k.isLossless = true) body → Reads c v.elements rest))
    (g : Grammar τ κ) (hg : Everywhere rules (fun k => k.isLossless = true) g) :
    Parser.Accounts Value.elements (g.denote interpret env) := by
  induction g with
  | satisfy expected accept =>
      exact (Parser.accounts_satisfy expected accept).map Value.elements_element
  | token t => exact (Parser.accounts_satisfy _ _).map Value.elements_element
  | anyToken => exact (Parser.accounts_satisfy _ _).map Value.elements_element
  | endOfInput => exact Parser.accounts_endOfInput.map fun _ => Value.elements_unit
  | emptyList => exact Parser.accounts_emptyList.map Value.elements_list
  | pure v => exact Parser.accounts_pure (List.isEmpty_iff.mp hg.here)
  | both a b iha ihb => exact ((iha hg.part).both (ihb hg.part)).map Value.elements_ofPair
  | orElse a b iha ihb => exact (iha hg.part).orElse (ihb hg.part)
  | optional g fallback ih => exact (ih hg.part).optional (List.isEmpty_iff.mp hg.here)
  | oneOrMore g ih => exact (ih hg.part).oneOrMore.map Value.elements_list
  | zeroOrMore g ih => exact (ih hg.part).zeroOrMore.map Value.elements_list
  | filter g accept text ih => exact (ih hg.part).filter accept text
  | label g expected ih => exact (ih hg.part).label expected
  | spanned g ih => exact (ih hg.part).spanned.map Value.elements_ofSpanned
  | rule name =>
      intro c v rest h
      obtain ⟨body, hbody, hreads⟩ := henv name c v rest h
      exact hreads (hg.rule hbody)
  | map | apply | left | right | between | separatedList | custom => cases hg.here

/-- A success of a grammar that collects has read exactly the tokens in its value. -/
theorem parser_accounts {g : Grammar τ κ}
    (hg : Everywhere rules (fun k => k.isLossless = true) g) :
    Parser.Accounts Value.elements (g.parser interpret rules) := by
  intro c v rest h
  exact success_induction (R := fun _ c v rest => Reads c v.elements rest)
    (fun _ henv g hg => denote_accounts henv g hg) hg h

end Grammar

section Conservation

variable {σ τ φ κ : Type} [SourceCursor σ τ φ] [LawfulCursor σ τ] [TokenSource φ τ]
  [LawfulSource σ τ φ]

open Cursor LawfulCursor SourceCursor

/-- What is read between two cursors is the part of the source between their positions. -/
theorem Reads.eq_extract {c rest : σ} {ts : List τ} (h : Reads c ts rest) :
    ts = (tokens (source c)).extract (position c) (position rest) := by
  have hlength : position rest - position c = ts.length := by
    have := h.position_eq
    omega
  calc ts = (ts ++ upcoming rest).take ts.length := List.take_left.symm
    _ = (upcoming c).take ts.length := by rw [← h.upcoming_eq]
    _ = ((tokens (source c)).drop (position c)).take (position rest - position c) := by
        rw [LawfulSource.upcoming_eq_drop, hlength]
    _ = (tokens (source c)).extract (position c) (position rest) :=
        (List.extract_eq_take_drop ..).symm

variable [Describe τ] [BEq τ]

/-- **No token is lost or doubled.** If a grammar that only collects succeeds on a cursor, the
cursor behind it is not before the first one and not behind the end of the source, and the tokens
that occur in the value, from left to right, are exactly those of the source between the two. -/
theorem Grammar.elements_eq_extract (interpret : κ → σ → Outcome σ (Value τ)) (rules : Rules τ κ)
    (g : Grammar τ κ) (hg : Grammar.Everywhere rules (fun k => k.isLossless = true) g)
    (c : σ) (v : Value τ) (rest : σ)
    (h : (g.parser interpret rules).Returns c (.success v rest)) :
    position c ≤ position rest
      ∧ position rest ≤ (tokens (source c)).length
      ∧ v.elements = (tokens (source c)).extract (position c) (position rest) := by
  have hreads : Reads c v.elements rest := Grammar.parser_accounts hg c v rest h
  have hbound : position rest ≤ (tokens (source c)).length := by
    rw [← hreads.source_eq]
    exact LawfulSource.position_le rest
  exact ⟨hreads.position_le, hbound, hreads.eq_extract⟩

end Conservation

/-- Letters and parentheses with trees in them. -/
def treeRules (κ : Type) : Rules Char κ :=
  [("tree", .label (.orElse (.satisfy "letter" Char.isAlpha)
    (.both (.token '(') (.both (.zeroOrMore (.rule "tree")) (.token ')')))) "tree")]

/-- Trees in the middle of a text, of which the last one is not closed and given back, and the same
in an array, with a span. -/
theorem Grammar.elements_eq_extract_trees :
    (∃ v : Value Char,
      ((Grammar.zeroOrMore (.rule "tree")).parser Empty.elim (treeRules Empty)).Returns
        (Cursor.advance 1 (TextCursor.start "éa(b)c(d"))
        (.success v (Cursor.advance 6 (TextCursor.start "éa(b)c(d")))
      ∧ v.elements = "éa(b)c(d".toList.extract 1 6)
    ∧ ∃ v : Value Char,
      ((Grammar.spanned (.rule "tree")).parser Empty.elim (treeRules Empty)).Returns
        (TokenCursor.valid #['x', '(', 'a', ')', 'b'] 1)
        (.success v (.valid #['x', '(', 'a', ')', 'b'] 4))
      ∧ v.elements = ['(', 'a', ')'] := by
  refine ⟨⟨_, ⟨5, rfl⟩, ?_⟩, _, ⟨5, rfl⟩, ?_⟩
  · exact (Grammar.elements_eq_extract Empty.elim (treeRules Empty) (.zeroOrMore (.rule "tree"))
      (Grammar.everywhere_of_all rfl rfl) (Cursor.advance 1 (TextCursor.start "éa(b)c(d")) _
      (Cursor.advance 6 (TextCursor.start "éa(b)c(d")) ⟨5, rfl⟩).2.2
  · exact (Grammar.elements_eq_extract Empty.elim (treeRules Empty) (.spanned (.rule "tree"))
      (Grammar.everywhere_of_all rfl rfl) (TokenCursor.valid #['x', '(', 'a', ')', 'b'] 1) _
      (TokenCursor.valid #['x', '(', 'a', ')', 'b'] 4) ⟨5, rfl⟩).2.2

end ParserKit

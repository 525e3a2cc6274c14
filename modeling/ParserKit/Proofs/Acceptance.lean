import ParserKit.Proofs.OrderedChoice
import ParserKit.Proofs.SeparatedRepetition

set_option autoImplicit false

/-! # Accepting what stands ahead

To show that a grammar reads a notation one shows that it takes a written text off the front of
whatever follows it. `Accepts p ts r v` says so of a parser: before the tokens `ts` and then `r`, it
succeeds with `v` and has read `ts`. What follows matters, for a repetition goes on as long as it
can; so `r` is part of the statement, and where it is that something ends, a parser has to refuse
it (`Refuses`). There is one lemma for each combinator, and for the loops an account of their
rounds, piece by piece (`AcceptsEach`).
-/

namespace ParserKit

open Cursor LawfulCursor

/-! ## Reading what stands ahead -/

section Reading

variable {σ τ : Type} [Cursor σ τ] [LawfulCursor σ τ]

/-- Behind the tokens that were read stands what stood behind them. -/
theorem Reads.upcoming_of_append {c rest : σ} {ts r : List τ} (h : Reads c ts rest)
    (hc : upcoming c = ts ++ r) : upcoming rest = r := by
  have heq : ts ++ r = ts ++ upcoming rest := by rw [← hc, h.upcoming_eq]
  exact (List.append_cancel_left heq).symm

/-- Reading something changes the position. -/
theorem Reads.position_ne {c rest : σ} {ts : List τ} (h : Reads c ts rest) (hts : ts ≠ []) :
    position rest ≠ position c := by
  have hpos := h.position_eq
  have hlength := List.length_pos_iff.mpr hts
  omega

/-- What stands ahead can be read. -/
theorem reads_of_upcoming {c : σ} {ts r : List τ} (h : upcoming c = ts ++ r) :
    Reads c ts (advance ts.length c) := by
  induction ts generalizing c with
  | nil => exact .nil c
  | cons t ts ih =>
      obtain ⟨mid, hnext, hmid, -⟩ := StandsAt.next ⟨h, rfl⟩
      have hadvance : advance (t :: ts).length c = advance ts.length mid := by
        rw [List.length_cons, advance, hnext]
      rw [hadvance]
      exact .cons hnext (ih hmid)

end Reading

namespace Parser

variable {σ τ α β γ : Type} [Cursor σ τ] [LawfulCursor σ τ]

/-- Before the tokens `ts`, followed by `r`, the parser `p` succeeds with `v` and reads `ts`. -/
def Accepts (p : Parser σ α) (ts r : List τ) (v : α) : Prop :=
  ∀ c : σ, upcoming c = ts ++ r → ∃ rest, p.Returns c (.success v rest) ∧ Reads c ts rest

/-- Before the tokens `r`, the parser `p` fails. -/
def Refuses (p : Parser σ α) (r : List τ) : Prop :=
  ∀ c : σ, upcoming c = r → ∃ e, p.Returns c (.failure e)

/-! ## One token -/

section Tokens

variable [Describe τ] {expected : String} {accept : τ → Bool} {t : τ} {r : List τ}

theorem accepts_satisfy (h : accept t = true) :
    Accepts (satisfy expected accept : Parser σ τ) [t] r t := by
  intro c hc
  obtain ⟨rest, hnext, -⟩ := StandsAt.next ⟨hc, rfl⟩
  exact ⟨rest, satisfy_success.mpr ⟨hnext, h⟩, .cons hnext (.nil rest)⟩

theorem refuses_satisfy (h : ∀ t, r.head? = some t → accept t = false) :
    Refuses (satisfy expected accept : Parser σ τ) r := by
  intro c hc
  cases r with
  | nil => exact ⟨_, satisfy_failure.mpr (Or.inl ⟨(next?_eq_none_iff c).mpr hc, rfl⟩)⟩
  | cons t r =>
      obtain ⟨rest, hnext, -⟩ := StandsAt.next ⟨hc, rfl⟩
      exact ⟨_, satisfy_failure.mpr (Or.inr ⟨t, rest, hnext, h t rfl, rfl⟩)⟩

theorem accepts_token [BEq τ] [ReflBEq τ] (t : τ) (r : List τ) :
    Accepts (token t : Parser σ τ) [t] r t := accepts_satisfy BEq.rfl

theorem refuses_token [BEq τ] [LawfulBEq τ] (h : ∀ u, r.head? = some u → u ≠ t) :
    Refuses (token t : Parser σ τ) r := refuses_satisfy fun u hu => beq_false_of_ne (h u hu)

end Tokens

/-! ## Sequences -/

section Sequences

variable {p : Parser σ α} {q : Parser σ β} {s : Parser σ γ} {ts us ws r : List τ} {v : α} {w : β}
  {u : γ}

theorem Accepts.map (hp : Accepts p ts r v) (f : α → β) : Accepts (p.map f) ts r (f v) := by
  intro c hc
  obtain ⟨rest, hv, hreads⟩ := hp c hc
  exact ⟨rest, map_success.mpr ⟨v, hv, rfl⟩, hreads⟩

theorem Refuses.map (hp : Refuses p r) (f : α → β) : Refuses (p.map f) r := by
  intro c hc
  obtain ⟨e, he⟩ := hp c hc
  exact ⟨e, map_failure.mpr he⟩

theorem Accepts.evaluate {p : Parser σ (Except Fault α)} (hp : Accepts p ts r (.ok v)) :
    Accepts p.evaluate ts r v := by
  intro c hc
  obtain ⟨rest, hv, hreads⟩ := hp c hc
  exact ⟨rest, evaluate_success.mpr hv, hreads⟩

theorem Refuses.evaluate {p : Parser σ (Except Fault α)} (hp : Refuses p r) :
    Refuses p.evaluate r := by
  intro c hc
  obtain ⟨e, he⟩ := hp c hc
  exact ⟨e, evaluate_failure.mpr he⟩

theorem Accepts.both (hp : Accepts p ts (us ++ r) v) (hq : Accepts q us r w) :
    Accepts (p.both q) (ts ++ us) r (v, w) := by
  intro c hc
  rw [List.append_assoc] at hc
  obtain ⟨mid, hv, hmid⟩ := hp c hc
  obtain ⟨rest, hw, hrest⟩ := hq mid (hmid.upcoming_of_append hc)
  exact ⟨rest, both_success.mpr ⟨mid, hv, hw⟩, hmid.append hrest⟩

theorem Accepts.left (hp : Accepts p ts (us ++ r) v) (hq : Accepts q us r w) :
    Accepts (p.left q) (ts ++ us) r v := by
  intro c hc
  rw [List.append_assoc] at hc
  obtain ⟨mid, hv, hmid⟩ := hp c hc
  obtain ⟨rest, hw, hrest⟩ := hq mid (hmid.upcoming_of_append hc)
  exact ⟨rest, left_success.mpr ⟨w, mid, hv, hw⟩, hmid.append hrest⟩

/-- A second part that refuses what the first one has left makes the whole fail. -/
theorem Accepts.left_refuses (hp : Accepts p ts r v) (hq : Refuses q r) :
    Refuses (p.left q) (ts ++ r) := by
  intro c hc
  obtain ⟨mid, hv, hmid⟩ := hp c hc
  obtain ⟨e, he⟩ := hq mid (hmid.upcoming_of_append hc)
  exact ⟨e, left_failure.mpr (Or.inr ⟨v, mid, hv, he⟩)⟩

theorem Accepts.right (hp : Accepts p ts (us ++ r) v) (hq : Accepts q us r w) :
    Accepts (p.right q) (ts ++ us) r w := by
  intro c hc
  rw [List.append_assoc] at hc
  obtain ⟨mid, hv, hmid⟩ := hp c hc
  obtain ⟨rest, hw, hrest⟩ := hq mid (hmid.upcoming_of_append hc)
  exact ⟨rest, right_success.mpr ⟨v, mid, hv, hw⟩, hmid.append hrest⟩

theorem Accepts.between (hp : Accepts p ts (us ++ (ws ++ r)) v) (hq : Accepts q us (ws ++ r) w)
    (hs : Accepts s ws r u) : Accepts (Parser.between p q s) (ts ++ us ++ ws) r w := by
  intro c hc
  rw [List.append_assoc, List.append_assoc] at hc
  obtain ⟨mid, hv, hmid⟩ := hp c hc
  have hmid' := hmid.upcoming_of_append hc
  obtain ⟨mid', hw, hinner⟩ := hq mid hmid'
  obtain ⟨rest, hu, hrest⟩ := hs mid' (hinner.upcoming_of_append hmid')
  exact ⟨rest, between_success.mpr ⟨v, mid, u, mid', hv, hw, hu⟩, (hmid.append hinner).append hrest⟩

theorem Refuses.both (hp : Refuses p r) (q : Parser σ β) : Refuses (p.both q) r := by
  intro c hc
  obtain ⟨e, he⟩ := hp c hc
  exact ⟨e, both_failure.mpr (Or.inl he)⟩

theorem Refuses.left (hp : Refuses p r) (q : Parser σ β) : Refuses (p.left q) r := by
  intro c hc
  obtain ⟨e, he⟩ := hp c hc
  exact ⟨e, left_failure.mpr (Or.inl he)⟩

theorem Refuses.right (hp : Refuses p r) (q : Parser σ β) : Refuses (p.right q) r := by
  intro c hc
  obtain ⟨e, he⟩ := hp c hc
  exact ⟨e, right_failure.mpr (Or.inl he)⟩

theorem Refuses.between (hp : Refuses p r) (q : Parser σ β) (s : Parser σ γ) :
    Refuses (Parser.between p q s) r := by
  intro c hc
  obtain ⟨e, he⟩ := hp c hc
  exact ⟨e, between_failure.mpr (Or.inl he)⟩

end Sequences

/-! ## Choice -/

section Choice

variable {p q : Parser σ α} {ts r : List τ} {v : α}

theorem Accepts.orElse (hp : Accepts p ts r v) (q : Parser σ α) : Accepts (p.orElse q) ts r v := by
  intro c hc
  obtain ⟨rest, hv, hreads⟩ := hp c hc
  exact ⟨rest, orElse_success.mpr (Or.inl hv), hreads⟩

/-- The second alternative is taken where the first one refuses all that stands ahead. -/
theorem Refuses.orElse_accepts (hp : Refuses p (ts ++ r)) (hq : Accepts q ts r v) :
    Accepts (p.orElse q) ts r v := by
  intro c hc
  obtain ⟨e, he⟩ := hp c hc
  obtain ⟨rest, hv, hreads⟩ := hq c hc
  exact ⟨rest, orElse_success.mpr (Or.inr ⟨e, he, hv⟩), hreads⟩

theorem Refuses.orElse (hp : Refuses p r) (hq : Refuses q r) : Refuses (p.orElse q) r := by
  intro c hc
  obtain ⟨e, he⟩ := hp c hc
  obtain ⟨e', he'⟩ := hq c hc
  exact ⟨e', orElse_failure.mpr ⟨e, he, he'⟩⟩

theorem Accepts.optional (hp : Accepts p ts r v) (fallback : α) :
    Accepts (p.optional fallback) ts r v := hp.orElse _

theorem Refuses.optional (hp : Refuses p r) (fallback : α) :
    Accepts (p.optional fallback) [] r fallback := by
  intro c hc
  obtain ⟨e, he⟩ := hp c hc
  exact ⟨c, optional_success.mpr (Or.inr ⟨e, he, rfl, rfl⟩), .nil c⟩

end Choice

/-! ## Repetition -/

/-- The tokens before `r` fall into pieces that are not empty. The parser `p` accepts one after the
other, with the given values, and refuses `r`. -/
inductive AcceptsEach (p : Parser σ α) (r : List τ) : List τ → List α → Prop where
  | nil (h : Refuses p r) : AcceptsEach p r [] []
  | cons {ts us : List τ} {v : α} {vs : List α} (hts : ts ≠ []) (hp : Accepts p ts (us ++ r) v)
      (h : AcceptsEach p r us vs) : AcceptsEach p r (ts ++ us) (v :: vs)

section Repetition

variable {p : Parser σ α} {ts us r : List τ} {v : α} {vs : List α}

theorem AcceptsEach.zeroOrMore (h : AcceptsEach p r ts vs) : Accepts p.zeroOrMore ts r vs := by
  induction h with
  | nil hrefuse =>
      intro c hc
      obtain ⟨e, he⟩ := hrefuse c hc
      exact ⟨c, zeroOrMore_of_failure he, .nil c⟩
  | cons hts hp _ ih =>
      intro c hc
      rw [List.append_assoc] at hc
      obtain ⟨mid, hv, hmid⟩ := hp c hc
      obtain ⟨rest, hvs, hrest⟩ := ih mid (hmid.upcoming_of_append hc)
      -- The piece is not empty, so the round has moved and the loop goes on behind it.
      have hrounds := (rounds_iff_zeroOrMore (hmid.position_ne hts)).mpr hvs
      exact ⟨rest, zeroOrMore_of_rounds hv hrounds, hmid.append hrest⟩

theorem AcceptsEach.oneOrMore (h : AcceptsEach p r ts (v :: vs)) :
    Accepts p.oneOrMore ts r (v :: vs) := by
  intro c hc
  obtain ⟨rest, hvs, hreads⟩ := h.zeroOrMore c hc
  obtain hmore | ⟨e, -, hnil, -⟩ := zeroOrMore_success.mp hvs
  · exact ⟨rest, hmore, hreads⟩
  · cases hnil

theorem Accepts.separatedList {separator : Parser σ β} (hp : Accepts p ts (us ++ r) v)
    (h : AcceptsEach (separator.right p) r us vs) :
    Accepts (p.separatedList separator) (ts ++ us) r (v :: vs) := by
  intro c hc
  rw [List.append_assoc] at hc
  obtain ⟨mid, hv, hmid⟩ := hp c hc
  obtain ⟨rest, hvs, hrest⟩ := h.zeroOrMore mid (hmid.upcoming_of_append hc)
  have hrounds := separatedRounds_iff_zeroOrMore.mpr hvs
  exact ⟨rest, separatedList_success.mpr ⟨v, mid, vs, hv, hrounds, rfl⟩, hmid.append hrest⟩

theorem Refuses.oneOrMore (hp : Refuses p r) : Refuses p.oneOrMore r := by
  intro c hc
  obtain ⟨e, he⟩ := hp c hc
  exact ⟨e, oneOrMore_failure.mpr he⟩

theorem Refuses.separatedList (hp : Refuses p r) (separator : Parser σ β) :
    Refuses (p.separatedList separator) r := by
  intro c hc
  obtain ⟨e, he⟩ := hp c hc
  exact ⟨e, separatedList_failure.mpr he⟩

end Repetition

end Parser

/-! ## References -/

namespace Grammar

variable {σ τ κ : Type} [Cursor σ τ] [LawfulCursor σ τ] [Describe τ] [BEq τ]
  {interpret : κ → σ → Outcome σ (Value τ)} {rules : Rules τ κ} {name : String}
  {body : Grammar τ κ} {ts r : List τ} {v : Value τ}

theorem accepts_rule (hbody : rules.lookup name = some body)
    (h : Parser.Accepts (body.parser interpret rules) ts r v) :
    Parser.Accepts ((rule name).parser interpret rules) ts r v := by
  intro c hc
  obtain ⟨rest, hv, hreads⟩ := h c hc
  exact ⟨rest, parser_rule_returns.mpr ⟨body, hbody, hv⟩, hreads⟩

theorem refuses_rule (hbody : rules.lookup name = some body)
    (h : Parser.Refuses (body.parser interpret rules) r) :
    Parser.Refuses ((rule name).parser interpret rules) r := by
  intro c hc
  obtain ⟨e, he⟩ := h c hc
  exact ⟨e, parser_rule_returns.mpr ⟨body, hbody, he⟩⟩

end Grammar

end ParserKit

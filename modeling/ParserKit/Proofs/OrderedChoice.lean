import ParserKit.Proofs.Occurrence
import ParserKit.Proofs.Reading
import ParserKit.Proofs.Rounds

set_option autoImplicit false

/-! # Grammars as ordered-choice expressions

The meaning of a grammar as a set of rules, without cursors, errors and budgets: from a list of
tokens and a position, a grammar derives a value with what it leaves of the list and the position
there, or it derives that it fails (`Derives`). A failure is derived and not the mere lack of a
derivation; the second alternative of a choice asks for one of the first.

The rules are adequate: a parser returns exactly what its grammar derives, and comes back at all
exactly if something is derived (`Grammar.returns_iff_derives`). So at most one verdict can be
derived from a list and a position.
-/

namespace ParserKit

/-- What a grammar can derive from a list of tokens and a position. -/
inductive Verdict (τ : Type) where
  /-- A value, the tokens that are left, and the position there. -/
  | accept (value : Value τ) (rest : List τ) (position : Nat)
  /-- The grammar does not match here. -/
  | fail

/-! ## The rules -/

mutual

/-- `Derives rules g ts n r`: from the tokens `ts` at position `n` the grammar `g` derives `r`. -/
inductive Derives {τ κ : Type} [BEq τ] (rules : Rules τ κ) :
    Grammar τ κ → List τ → Nat → Verdict τ → Prop where
  | satisfy {expected : String} {accept : τ → Bool} {t : τ} {ts : List τ} {n : Nat}
      (h : accept t = true) :
      Derives rules (.satisfy expected accept) (t :: ts) n (.accept (.element t) ts (n + 1))
  | satisfyRefused {expected : String} {accept : τ → Bool} {t : τ} {ts : List τ} {n : Nat}
      (h : accept t = false) : Derives rules (.satisfy expected accept) (t :: ts) n .fail
  | satisfyAtEnd {expected : String} {accept : τ → Bool} {n : Nat} :
      Derives rules (.satisfy expected accept) [] n .fail
  /-- The value is the token found, which an unlawful test of equality may not tell from `t`. -/
  | token {t u : τ} {ts : List τ} {n : Nat} (h : (u == t) = true) :
      Derives rules (.token t) (u :: ts) n (.accept (.element u) ts (n + 1))
  | tokenRefused {t u : τ} {ts : List τ} {n : Nat} (h : (u == t) = false) :
      Derives rules (.token t) (u :: ts) n .fail
  | tokenAtEnd {t : τ} {n : Nat} : Derives rules (.token t) [] n .fail
  | anyToken {t : τ} {ts : List τ} {n : Nat} :
      Derives rules .anyToken (t :: ts) n (.accept (.element t) ts (n + 1))
  | anyTokenAtEnd {n : Nat} : Derives rules .anyToken [] n .fail
  | endOfInput {n : Nat} : Derives rules .endOfInput [] n (.accept .unit [] n)
  | endOfInputRefused {t : τ} {ts : List τ} {n : Nat} :
      Derives rules .endOfInput (t :: ts) n .fail
  | emptyList {ts : List τ} {n : Nat} :
      Derives rules .emptyList ts n (.accept (.list []) ts n)
  | pure {v : Value τ} {ts : List τ} {n : Nat} : Derives rules (.pure v) ts n (.accept v ts n)
  | map {g : Grammar τ κ} {f : Value τ → Except Fault (Value τ)} {ts ts' : List τ} {n n' : Nat}
      {v w : Value τ} (hg : Derives rules g ts n (.accept v ts' n')) (hf : f v = .ok w) :
      Derives rules (.map g f) ts n (.accept w ts' n')
  | mapFail {g : Grammar τ κ} {f : Value τ → Except Fault (Value τ)} {ts : List τ} {n : Nat}
      (hg : Derives rules g ts n .fail) : Derives rules (.map g f) ts n .fail
  | apply {call : Value τ → Value τ → Except Fault (Value τ)} {f a : Grammar τ κ}
      {ts ts' ts'' : List τ} {n n' n'' : Nat} {v w u : Value τ}
      (hf : Derives rules f ts n (.accept v ts' n'))
      (ha : Derives rules a ts' n' (.accept w ts'' n'')) (hcall : call v w = .ok u) :
      Derives rules (.apply call f a) ts n (.accept u ts'' n'')
  | applyFail {call : Value τ → Value τ → Except Fault (Value τ)} {f a : Grammar τ κ}
      {ts : List τ} {n : Nat} (hf : Derives rules f ts n .fail) :
      Derives rules (.apply call f a) ts n .fail
  | applyFailBehind {call : Value τ → Value τ → Except Fault (Value τ)} {f a : Grammar τ κ}
      {ts ts' : List τ} {n n' : Nat} {v : Value τ} (hf : Derives rules f ts n (.accept v ts' n'))
      (ha : Derives rules a ts' n' .fail) : Derives rules (.apply call f a) ts n .fail
  | both {a b : Grammar τ κ} {ts ts' ts'' : List τ} {n n' n'' : Nat} {v w : Value τ}
      (ha : Derives rules a ts n (.accept v ts' n'))
      (hb : Derives rules b ts' n' (.accept w ts'' n'')) :
      Derives rules (.both a b) ts n (.accept (.pair v w) ts'' n'')
  | bothFail {a b : Grammar τ κ} {ts : List τ} {n : Nat} (ha : Derives rules a ts n .fail) :
      Derives rules (.both a b) ts n .fail
  | bothFailBehind {a b : Grammar τ κ} {ts ts' : List τ} {n n' : Nat} {v : Value τ}
      (ha : Derives rules a ts n (.accept v ts' n')) (hb : Derives rules b ts' n' .fail) :
      Derives rules (.both a b) ts n .fail
  | left {a b : Grammar τ κ} {ts ts' ts'' : List τ} {n n' n'' : Nat} {v w : Value τ}
      (ha : Derives rules a ts n (.accept v ts' n'))
      (hb : Derives rules b ts' n' (.accept w ts'' n'')) :
      Derives rules (.left a b) ts n (.accept v ts'' n'')
  | leftFail {a b : Grammar τ κ} {ts : List τ} {n : Nat} (ha : Derives rules a ts n .fail) :
      Derives rules (.left a b) ts n .fail
  | leftFailBehind {a b : Grammar τ κ} {ts ts' : List τ} {n n' : Nat} {v : Value τ}
      (ha : Derives rules a ts n (.accept v ts' n')) (hb : Derives rules b ts' n' .fail) :
      Derives rules (.left a b) ts n .fail
  | right {a b : Grammar τ κ} {ts ts' ts'' : List τ} {n n' n'' : Nat} {v w : Value τ}
      (ha : Derives rules a ts n (.accept v ts' n'))
      (hb : Derives rules b ts' n' (.accept w ts'' n'')) :
      Derives rules (.right a b) ts n (.accept w ts'' n'')
  | rightFail {a b : Grammar τ κ} {ts : List τ} {n : Nat} (ha : Derives rules a ts n .fail) :
      Derives rules (.right a b) ts n .fail
  | rightFailBehind {a b : Grammar τ κ} {ts ts' : List τ} {n n' : Nat} {v : Value τ}
      (ha : Derives rules a ts n (.accept v ts' n')) (hb : Derives rules b ts' n' .fail) :
      Derives rules (.right a b) ts n .fail
  | between {a b e : Grammar τ κ} {ts ts' ts'' ts''' : List τ} {n n' n'' n''' : Nat}
      {u v w : Value τ} (ha : Derives rules a ts n (.accept u ts' n'))
      (hb : Derives rules b ts' n' (.accept v ts'' n''))
      (he : Derives rules e ts'' n'' (.accept w ts''' n''')) :
      Derives rules (.between a b e) ts n (.accept v ts''' n''')
  | betweenFail {a b e : Grammar τ κ} {ts : List τ} {n : Nat} (ha : Derives rules a ts n .fail) :
      Derives rules (.between a b e) ts n .fail
  | betweenFailInside {a b e : Grammar τ κ} {ts ts' : List τ} {n n' : Nat} {u : Value τ}
      (ha : Derives rules a ts n (.accept u ts' n')) (hb : Derives rules b ts' n' .fail) :
      Derives rules (.between a b e) ts n .fail
  | betweenFailBehind {a b e : Grammar τ κ} {ts ts' ts'' : List τ} {n n' n'' : Nat}
      {u v : Value τ} (ha : Derives rules a ts n (.accept u ts' n'))
      (hb : Derives rules b ts' n' (.accept v ts'' n'')) (he : Derives rules e ts'' n'' .fail) :
      Derives rules (.between a b e) ts n .fail
  | orElse {a b : Grammar τ κ} {ts ts' : List τ} {n n' : Nat} {v : Value τ}
      (ha : Derives rules a ts n (.accept v ts' n')) :
      Derives rules (.orElse a b) ts n (.accept v ts' n')
  /-- The second alternative is tried on the list on which the first one fails. -/
  | orElseSecond {a b : Grammar τ κ} {ts : List τ} {n : Nat} {r : Verdict τ}
      (ha : Derives rules a ts n .fail) (hb : Derives rules b ts n r) :
      Derives rules (.orElse a b) ts n r
  | optional {g : Grammar τ κ} {fallback : Value τ} {ts ts' : List τ} {n n' : Nat} {v : Value τ}
      (hg : Derives rules g ts n (.accept v ts' n')) :
      Derives rules (.optional g fallback) ts n (.accept v ts' n')
  | optionalFallback {g : Grammar τ κ} {fallback : Value τ} {ts : List τ} {n : Nat}
      (hg : Derives rules g ts n .fail) :
      Derives rules (.optional g fallback) ts n (.accept fallback ts n)
  | oneOrMore {g : Grammar τ κ} {ts ts' ts'' : List τ} {n n' n'' : Nat} {v : Value τ}
      {vs : List (Value τ)} (hg : Derives rules g ts n (.accept v ts' n'))
      (hrest : DerivesAgain rules g n ts' n' vs ts'' n'') :
      Derives rules (.oneOrMore g) ts n (.accept (.list (v :: vs)) ts'' n'')
  | oneOrMoreFail {g : Grammar τ κ} {ts : List τ} {n : Nat} (hg : Derives rules g ts n .fail) :
      Derives rules (.oneOrMore g) ts n .fail
  | zeroOrMore {g : Grammar τ κ} {ts ts' ts'' : List τ} {n n' n'' : Nat} {v : Value τ}
      {vs : List (Value τ)} (hg : Derives rules g ts n (.accept v ts' n'))
      (hrest : DerivesAgain rules g n ts' n' vs ts'' n'') :
      Derives rules (.zeroOrMore g) ts n (.accept (.list (v :: vs)) ts'' n'')
  | zeroOrMoreNone {g : Grammar τ κ} {ts : List τ} {n : Nat} (hg : Derives rules g ts n .fail) :
      Derives rules (.zeroOrMore g) ts n (.accept (.list []) ts n)
  | separatedList {item separator : Grammar τ κ} {ts ts' ts'' : List τ} {n n' n'' : Nat}
      {v : Value τ} {vs : List (Value τ)} (hi : Derives rules item ts n (.accept v ts' n'))
      (hrest : DerivesSeparated rules item separator ts' n' vs ts'' n'') :
      Derives rules (.separatedList item separator) ts n (.accept (.list (v :: vs)) ts'' n'')
  | separatedListFail {item separator : Grammar τ κ} {ts : List τ} {n : Nat}
      (hi : Derives rules item ts n .fail) :
      Derives rules (.separatedList item separator) ts n .fail
  | filter {g : Grammar τ κ} {accept : Value τ → Bool} {text : String} {ts ts' : List τ}
      {n n' : Nat} {v : Value τ} (hg : Derives rules g ts n (.accept v ts' n'))
      (h : accept v = true) : Derives rules (.filter g accept text) ts n (.accept v ts' n')
  | filterRefused {g : Grammar τ κ} {accept : Value τ → Bool} {text : String} {ts ts' : List τ}
      {n n' : Nat} {v : Value τ} (hg : Derives rules g ts n (.accept v ts' n'))
      (h : accept v = false) : Derives rules (.filter g accept text) ts n .fail
  | filterFail {g : Grammar τ κ} {accept : Value τ → Bool} {text : String} {ts : List τ} {n : Nat}
      (hg : Derives rules g ts n .fail) : Derives rules (.filter g accept text) ts n .fail
  | label {g : Grammar τ κ} {expected : String} {ts : List τ} {n : Nat} {r : Verdict τ}
      (hg : Derives rules g ts n r) : Derives rules (.label g expected) ts n r
  | spanned {g : Grammar τ κ} {ts ts' : List τ} {n n' : Nat} {v : Value τ}
      (hg : Derives rules g ts n (.accept v ts' n')) :
      Derives rules (.spanned g) ts n (.accept (.pair v (.span ⟨n, n'⟩)) ts' n')
  | spannedFail {g : Grammar τ κ} {ts : List τ} {n : Nat} (hg : Derives rules g ts n .fail) :
      Derives rules (.spanned g) ts n .fail
  | rule {name : String} {body : Grammar τ κ} {ts : List τ} {n : Nat} {r : Verdict τ}
      (hbody : rules.lookup name = some body) (h : Derives rules body ts n r) :
      Derives rules (.rule name) ts n r

/-- Behind an iteration of `g` that started at position `previous`, the further iterations yield
`vs`. An iteration that leaves the position unchanged is the last one. -/
inductive DerivesAgain {τ κ : Type} [BEq τ] (rules : Rules τ κ) :
    Grammar τ κ → Nat → List τ → Nat → List (Value τ) → List τ → Nat → Prop where
  | still {g : Grammar τ κ} {ts : List τ} {n : Nat} : DerivesAgain rules g n ts n [] ts n
  | refused {g : Grammar τ κ} {previous : Nat} {ts : List τ} {n : Nat} (h : n ≠ previous)
      (hg : Derives rules g ts n .fail) : DerivesAgain rules g previous ts n [] ts n
  | again {g : Grammar τ κ} {previous : Nat} {ts ts' ts'' : List τ} {n n' n'' : Nat} {v : Value τ}
      {vs : List (Value τ)} (h : n ≠ previous) (hg : Derives rules g ts n (.accept v ts' n'))
      (hrest : DerivesAgain rules g n ts' n' vs ts'' n'') :
      DerivesAgain rules g previous ts n (v :: vs) ts'' n''

/-- Behind an item, further pairs of a separator and an item yield `vs`. A separator without an
item is given back, and a pair that leaves the position unchanged is the last one. -/
inductive DerivesSeparated {τ κ : Type} [BEq τ] (rules : Rules τ κ) :
    Grammar τ κ → Grammar τ κ → List τ → Nat → List (Value τ) → List τ → Nat → Prop where
  | noSeparator {item separator : Grammar τ κ} {ts : List τ} {n : Nat}
      (hs : Derives rules separator ts n .fail) :
      DerivesSeparated rules item separator ts n [] ts n
  | noItem {item separator : Grammar τ κ} {ts ts' : List τ} {n n' : Nat} {s : Value τ}
      (hs : Derives rules separator ts n (.accept s ts' n'))
      (hi : Derives rules item ts' n' .fail) :
      DerivesSeparated rules item separator ts n [] ts n
  | still {item separator : Grammar τ κ} {ts ts' ts'' : List τ} {n n' : Nat} {s v : Value τ}
      (hs : Derives rules separator ts n (.accept s ts' n'))
      (hi : Derives rules item ts' n' (.accept v ts'' n)) :
      DerivesSeparated rules item separator ts n [v] ts'' n
  | again {item separator : Grammar τ κ} {ts ts' ts'' ts''' : List τ} {n n' n'' n''' : Nat}
      {s v : Value τ} {vs : List (Value τ)} (hs : Derives rules separator ts n (.accept s ts' n'))
      (hi : Derives rules item ts' n' (.accept v ts'' n'')) (h : n'' ≠ n)
      (hrest : DerivesSeparated rules item separator ts'' n'' vs ts''' n''') :
      DerivesSeparated rules item separator ts n (v :: vs) ts''' n'''

end

/-! ## What a parser returns is derived -/

section Soundness

open LawfulCursor Cursor

variable {σ τ κ : Type} [Cursor σ τ] [LawfulCursor σ τ] [BEq τ] {rules : Rules τ κ}

/-- An outcome without its cursor and its error. -/
def Outcome.verdict : Outcome σ (Value τ) → Verdict τ
  | .success v rest => .accept v (upcoming rest) (position rest)
  | .failure _ => .fail

/-- Everything that `p` returns is derived for `g`. -/
def DerivedBy (rules : Rules τ κ) (g : Grammar τ κ) (p : Parser σ (Value τ)) : Prop :=
  ∀ (c : σ) (o : Outcome σ (Value τ)),
    p.Returns c o → Derives rules g (upcoming c) (position c) o.verdict

namespace DerivedBy

variable {a b e : Grammar τ κ} {p q r : Parser σ (Value τ)}

/-- One token, taken or refused. -/
theorem satisfy [Describe τ] {g : Grammar τ κ} {expected : String} {accept : τ → Bool}
    (htake : ∀ t ts n, accept t = true →
      Derives rules g (t :: ts) n (.accept (.element t) ts (n + 1)))
    (hrefuse : ∀ t ts n, accept t = false → Derives rules g (t :: ts) n .fail)
    (hend : ∀ n, Derives rules g [] n .fail) :
    DerivedBy rules g ((Parser.satisfy expected accept : Parser σ τ).map .element) := by
  intro c o h
  cases o with
  | success v rest =>
      obtain ⟨t, ht, rfl⟩ := Parser.map_success.mp h
      obtain ⟨hnext, ha⟩ := Parser.satisfy_success.mp ht
      rw [upcoming_eq_cons hnext, Outcome.verdict, position_next hnext]
      exact htake t _ _ ha
  | failure e =>
      rcases Parser.satisfy_failure.mp (Parser.map_failure.mp h) with
        ⟨hnext, _⟩ | ⟨t, rest, hnext, ha, _⟩
      · rw [(next?_eq_none_iff c).mp hnext]
        exact hend _
      · rw [upcoming_eq_cons hnext]
        exact hrefuse t _ _ ha

theorem endOfInput [Describe τ] :
    DerivedBy rules .endOfInput ((Parser.endOfInput : Parser σ Unit).map fun _ => .unit) := by
  intro c o h
  cases o with
  | success v rest =>
      obtain ⟨u, hu, rfl⟩ := Parser.map_success.mp h
      obtain ⟨hnext, rfl⟩ := Parser.endOfInput_success.mp hu
      rw [Outcome.verdict, (next?_eq_none_iff rest).mp hnext]
      exact .endOfInput
  | failure e =>
      obtain ⟨t, rest, hnext, _⟩ := Parser.endOfInput_failure.mp (Parser.map_failure.mp h)
      rw [upcoming_eq_cons hnext]
      exact .endOfInputRefused

theorem emptyList : DerivedBy rules .emptyList ((Parser.emptyList : Parser σ _).map .list) := by
  intro c o h
  cases o with
  | success v rest =>
      obtain ⟨vs, hvs, rfl⟩ := Parser.map_success.mp h
      cases Parser.returns_emptyList.mp hvs
      exact .emptyList
  | failure e => cases Parser.returns_emptyList.mp (Parser.map_failure.mp h)

theorem pure (v : Value τ) : DerivedBy rules (.pure v) (Parser.pure v : Parser σ _) := by
  intro c o h
  cases Parser.returns_pure.mp h
  exact .pure

theorem map (ha : DerivedBy rules a p) (f : Value τ → Except Fault (Value τ)) :
    DerivedBy rules (.map a f) (p.map f).evaluate := by
  intro c o h
  cases o with
  | success v rest =>
      obtain ⟨w, hw, hf⟩ := Parser.map_success.mp (Parser.evaluate_success.mp h)
      exact .map (ha _ _ hw) hf
  | failure err =>
      exact .mapFail (ha _ _ (Parser.map_failure.mp (Parser.evaluate_failure.mp h)))

theorem apply (ha : DerivedBy rules a p) (hb : DerivedBy rules b q)
    (call : Value τ → Value τ → Except Fault (Value τ)) :
    DerivedBy rules (.apply call a b) ((p.map call).apply q).evaluate := by
  intro c o h
  cases o with
  | success v rest =>
      obtain ⟨k, mid, w, hk, hw, hcall⟩ := Parser.apply_success.mp (Parser.evaluate_success.mp h)
      obtain ⟨u, hu, rfl⟩ := Parser.map_success.mp hk
      exact .apply (ha _ _ hu) (hb _ _ hw) hcall
  | failure err =>
      rcases Parser.apply_failure.mp (Parser.evaluate_failure.mp h) with hf | ⟨k, mid, hk, hw⟩
      · exact .applyFail (ha _ _ (Parser.map_failure.mp hf))
      · obtain ⟨u, hu, rfl⟩ := Parser.map_success.mp hk
        exact .applyFailBehind (ha _ _ hu) (hb _ _ hw)

theorem both (ha : DerivedBy rules a p) (hb : DerivedBy rules b q) :
    DerivedBy rules (.both a b) ((p.both q).map .ofPair) := by
  intro c o h
  cases o with
  | success v rest =>
      obtain ⟨w, hw, rfl⟩ := Parser.map_success.mp h
      obtain ⟨mid, hp, hq⟩ := Parser.both_success.mp hw
      exact .both (ha _ _ hp) (hb _ _ hq)
  | failure err =>
      rcases Parser.both_failure.mp (Parser.map_failure.mp h) with hp | ⟨v, mid, hp, hq⟩
      · exact .bothFail (ha _ _ hp)
      · exact .bothFailBehind (ha _ _ hp) (hb _ _ hq)

theorem left (ha : DerivedBy rules a p) (hb : DerivedBy rules b q) :
    DerivedBy rules (.left a b) (p.left q) := by
  intro c o h
  cases o with
  | success v rest =>
      obtain ⟨w, mid, hp, hq⟩ := Parser.left_success.mp h
      exact .left (ha _ _ hp) (hb _ _ hq)
  | failure err =>
      rcases Parser.left_failure.mp h with hp | ⟨v, mid, hp, hq⟩
      · exact .leftFail (ha _ _ hp)
      · exact .leftFailBehind (ha _ _ hp) (hb _ _ hq)

theorem right (ha : DerivedBy rules a p) (hb : DerivedBy rules b q) :
    DerivedBy rules (.right a b) (p.right q) := by
  intro c o h
  cases o with
  | success v rest =>
      obtain ⟨w, mid, hp, hq⟩ := Parser.right_success.mp h
      exact .right (ha _ _ hp) (hb _ _ hq)
  | failure err =>
      rcases Parser.right_failure.mp h with hp | ⟨v, mid, hp, hq⟩
      · exact .rightFail (ha _ _ hp)
      · exact .rightFailBehind (ha _ _ hp) (hb _ _ hq)

theorem between (ha : DerivedBy rules a p) (hb : DerivedBy rules b q) (he : DerivedBy rules e r) :
    DerivedBy rules (.between a b e) (Parser.between p q r) := by
  intro c o h
  cases o with
  | success v rest =>
      obtain ⟨u, mid, w, mid', hp, hq, hr⟩ := Parser.between_success.mp h
      exact .between (ha _ _ hp) (hb _ _ hq) (he _ _ hr)
  | failure err =>
      rcases Parser.between_failure.mp h with hp | ⟨u, mid, hp, hq | ⟨v, mid', hq, hr⟩⟩
      · exact .betweenFail (ha _ _ hp)
      · exact .betweenFailInside (ha _ _ hp) (hb _ _ hq)
      · exact .betweenFailBehind (ha _ _ hp) (hb _ _ hq) (he _ _ hr)

theorem orElse (ha : DerivedBy rules a p) (hb : DerivedBy rules b q) :
    DerivedBy rules (.orElse a b) (p.orElse q) := by
  intro c o h
  cases o with
  | success v rest =>
      rcases Parser.orElse_success.mp h with hp | ⟨err, hp, hq⟩
      · exact .orElse (ha _ _ hp)
      · exact .orElseSecond (ha _ _ hp) (hb _ _ hq)
  | failure err =>
      obtain ⟨err', hp, hq⟩ := Parser.orElse_failure.mp h
      exact .orElseSecond (ha _ _ hp) (hb _ _ hq)

theorem optional (ha : DerivedBy rules a p) (fallback : Value τ) :
    DerivedBy rules (.optional a fallback) (p.optional fallback) := by
  intro c o h
  cases o with
  | success v rest =>
      rcases Parser.optional_success.mp h with hp | ⟨err, hp, rfl, rfl⟩
      · exact .optional (ha _ _ hp)
      · exact .optionalFallback (ha _ _ hp)
  | failure err => exact absurd h Parser.optional_failure

/-- The rounds of a repetition are iterations. -/
theorem rounds (ha : DerivedBy rules a p) {previous : Nat} {c rest : σ} {vs : List (Value τ)}
    (h : p.Rounds previous c vs rest) :
    DerivesAgain rules a previous (upcoming c) (position c) vs (upcoming rest)
      (position rest) := by
  induction h with
  | still h =>
      subst h
      exact .still
  | refused h hfail => exact .refused h (ha _ _ hfail)
  | again h hfirst _ ih => exact .again h (ha _ _ hfirst) ih

theorem oneOrMore (ha : DerivedBy rules a p) :
    DerivedBy rules (.oneOrMore a) (p.oneOrMore.map .list) := by
  intro c o h
  cases o with
  | success v rest =>
      obtain ⟨vs, hvs, rfl⟩ := Parser.map_success.mp h
      obtain ⟨v, mid, vs', hfirst, hrounds, rfl⟩ := Parser.oneOrMore_success.mp hvs
      exact .oneOrMore (ha _ _ hfirst) (ha.rounds hrounds)
  | failure err =>
      exact .oneOrMoreFail (ha _ _ (Parser.oneOrMore_failure.mp (Parser.map_failure.mp h)))

theorem zeroOrMore (ha : DerivedBy rules a p) :
    DerivedBy rules (.zeroOrMore a) (p.zeroOrMore.map .list) := by
  intro c o h
  cases o with
  | success v rest =>
      obtain ⟨vs, hvs, rfl⟩ := Parser.map_success.mp h
      rcases Parser.zeroOrMore_success.mp hvs with hvs | ⟨err, hp, rfl, rfl⟩
      · obtain ⟨v, mid, vs', hfirst, hrounds, rfl⟩ := Parser.oneOrMore_success.mp hvs
        exact .zeroOrMore (ha _ _ hfirst) (ha.rounds hrounds)
      · exact .zeroOrMoreNone (ha _ _ hp)
  | failure err => exact absurd (Parser.map_failure.mp h) Parser.zeroOrMore_failure

theorem separatedRounds (ha : DerivedBy rules a p) (hb : DerivedBy rules b q) {c rest : σ}
    {vs : List (Value τ)} (h : Parser.SeparatedRounds q p c vs rest) :
    DerivesSeparated rules a b (upcoming c) (position c) vs (upcoming rest) (position rest) := by
  induction h with
  | noSeparator hs => exact .noSeparator (hb _ _ hs)
  | noItem hs hi => exact .noItem (hb _ _ hs) (ha _ _ hi)
  | still hs hi h =>
      -- The rule names one position only, so the two that are equal have to be made the same.
      have hitem := ha _ _ hi
      rw [Outcome.verdict, h] at hitem
      rw [h]
      exact .still (hb _ _ hs) hitem
  | again hs hi h _ ih => exact .again (hb _ _ hs) (ha _ _ hi) h ih

theorem separatedList (ha : DerivedBy rules a p) (hb : DerivedBy rules b q) :
    DerivedBy rules (.separatedList a b) ((p.separatedList q).map .list) := by
  intro c o h
  cases o with
  | success v rest =>
      obtain ⟨vs, hvs, rfl⟩ := Parser.map_success.mp h
      obtain ⟨v, mid, vs', hfirst, hrounds, rfl⟩ := Parser.separatedList_success.mp hvs
      exact .separatedList (ha _ _ hfirst) (ha.separatedRounds hb hrounds)
  | failure err =>
      exact .separatedListFail (ha _ _ (Parser.separatedList_failure.mp (Parser.map_failure.mp h)))

theorem filter (ha : DerivedBy rules a p) (accept : Value τ → Bool) (text : String) :
    DerivedBy rules (.filter a accept text) (p.filter accept text) := by
  intro c o h
  cases o with
  | success v rest =>
      obtain ⟨hv, haccept⟩ := Parser.filter_success.mp h
      exact .filter (ha _ _ hv) haccept
  | failure err =>
      rcases Parser.filter_failure.mp h with hp | ⟨v, mid, hv, hrefuse, _⟩
      · exact .filterFail (ha _ _ hp)
      · exact .filterRefused (ha _ _ hv) hrefuse

theorem label [Describe τ] (ha : DerivedBy rules a p) (expected : String) :
    DerivedBy rules (.label a expected) (p.label expected) := by
  intro c o h
  cases o with
  | success v rest => exact .label (ha _ _ (Parser.label_success.mp h))
  | failure err =>
      obtain ⟨⟨err', hp⟩, _⟩ := Parser.label_failure.mp h
      -- The two errors differ, but a verdict does not tell errors apart.
      have hfail := ha _ _ hp
      exact .label hfail

theorem spanned (ha : DerivedBy rules a p) :
    DerivedBy rules (.spanned a) (p.spanned.map .ofSpanned) := by
  intro c o h
  cases o with
  | success v rest =>
      obtain ⟨w, hw, rfl⟩ := Parser.map_success.mp h
      obtain ⟨hv, hspan⟩ := Parser.spanned_success.mp hw
      rw [Value.ofSpanned, hspan]
      exact .spanned (ha _ _ hv)
  | failure err =>
      exact .spannedFail (ha _ _ (Parser.spanned_failure.mp (Parser.map_failure.mp h)))

end DerivedBy

variable [Describe τ] {interpret : κ → σ → Outcome σ (Value τ)}

/-- Let the parsers of the references return only what their rules derive. Then a composed grammar
returns only what it derives. -/
theorem denote_derivedBy {env : String → Parser σ (Value τ)}
    (henv : ∀ name c o, (env name).Returns c o →
      ∃ body, rules.lookup name = some body
        ∧ (Grammar.Composed rules body → Derives rules body (upcoming c) (position c) o.verdict))
    (g : Grammar τ κ) (hg : Grammar.Composed rules g) :
    DerivedBy rules g (g.denote interpret env) := by
  -- The three parsers for one token differ in their rules but are one combinator.
  induction g with
  | satisfy expected accept =>
      exact .satisfy (fun _ _ _ => .satisfy) (fun _ _ _ => .satisfyRefused) (fun _ => .satisfyAtEnd)
  | token t =>
      exact .satisfy (fun _ _ _ => .token) (fun _ _ _ => .tokenRefused) (fun _ => .tokenAtEnd)
  | anyToken =>
      refine .satisfy (fun _ _ _ _ => .anyToken) (fun _ _ _ hu => ?_) (fun _ => .anyTokenAtEnd)
      cases hu
  | endOfInput => exact .endOfInput
  | emptyList => exact .emptyList
  | pure v => exact .pure v
  | map g f ih => exact (ih hg.part).map f
  | apply call f a ihf iha => exact (ihf hg.part).apply (iha hg.part) call
  | both a b iha ihb => exact (iha hg.part).both (ihb hg.part)
  | left a b iha ihb => exact (iha hg.part).left (ihb hg.part)
  | right a b iha ihb => exact (iha hg.part).right (ihb hg.part)
  | between a b e iha ihb ihe => exact (iha hg.part).between (ihb hg.part) (ihe hg.part)
  | orElse a b iha ihb => exact (iha hg.part).orElse (ihb hg.part)
  | optional g fallback ih => exact (ih hg.part).optional fallback
  | oneOrMore g ih => exact (ih hg.part).oneOrMore
  | zeroOrMore g ih => exact (ih hg.part).zeroOrMore
  | separatedList item separator ihi ihs => exact (ihi hg.part).separatedList (ihs hg.part)
  | filter g accept text ih => exact (ih hg.part).filter accept text
  | label g expected ih => exact (ih hg.part).label expected
  | spanned g ih => exact (ih hg.part).spanned
  | rule name =>
      intro c o h
      obtain ⟨body, hbody, hderives⟩ := henv name c o h
      exact .rule hbody (hderives (hg.rule hbody))
  | custom k => exact hg.here.elim

/-- **Soundness.** What a composed grammar returns is derived. -/
theorem Grammar.Composed.derives {g : Grammar τ κ} (hg : Grammar.Composed rules g) {c : σ}
    {o : Outcome σ (Value τ)} (h : (g.parser interpret rules).Returns c o) :
    Derives rules g (upcoming c) (position c) o.verdict := by
  refine Grammar.returns_induction (Q := fun g c o => Grammar.Composed rules g →
    Derives rules g (upcoming c) (position c) o.verdict) ?_ h hg
  intro env henv g c o hreturns hg
  exact denote_derivedBy henv g hg c o hreturns

end Soundness

/-! ## What is derived is returned -/

section Completeness

open LawfulCursor Cursor

variable {σ τ κ : Type} [Cursor σ τ] [LawfulCursor σ τ]

/-- The cursor `c` stands before the tokens `ts`, at position `n`. -/
def StandsAt (c : σ) (ts : List τ) (n : Nat) : Prop := upcoming c = ts ∧ position c = n

theorem StandsAt.next {c : σ} {t : τ} {ts : List τ} {n : Nat} (h : StandsAt c (t :: ts) n) :
    ∃ rest, next? c = some (t, rest) ∧ StandsAt rest ts (n + 1) := by
  obtain ⟨hts, hn⟩ := h
  cases hnext : next? c with
  | none =>
      rw [(next?_eq_none_iff c).mp hnext] at hts
      cases hts
  | some read =>
      obtain ⟨u, rest⟩ := read
      rw [upcoming_eq_cons hnext] at hts
      cases hts
      exact ⟨rest, rfl, rfl, by rw [position_next hnext, hn]⟩

theorem StandsAt.atEnd {c : σ} {n : Nat} (h : StandsAt c [] n) : next? c = none :=
  (next?_eq_none_iff c).mpr h.1

/-- On `c`, `p` returns what a verdict says. -/
def Parser.Meets (p : Parser σ (Value τ)) (c : σ) : Verdict τ → Prop
  | .accept v ts n => ∃ rest, p.Returns c (.success v rest) ∧ StandsAt rest ts n
  | .fail => ∃ e, p.Returns c (.failure e)

namespace Parser

variable [Describe τ] {expected : String} {accept : τ → Bool} {c : σ} {t : τ} {ts : List τ}
  {n : Nat}

theorem meets_satisfy (hc : StandsAt c (t :: ts) n) (ha : accept t = true) :
    ((satisfy expected accept : Parser σ τ).map Value.element).Meets c
      (.accept (.element t) ts (n + 1)) := by
  obtain ⟨rest, hnext, hrest⟩ := hc.next
  exact ⟨rest, map_success.mpr ⟨t, satisfy_success.mpr ⟨hnext, ha⟩, rfl⟩, hrest⟩

theorem meets_satisfy_refused (hc : StandsAt c (t :: ts) n) (ha : accept t = false) :
    ((satisfy expected accept : Parser σ τ).map Value.element).Meets c .fail := by
  obtain ⟨rest, hnext, _⟩ := hc.next
  exact ⟨_, map_failure.mpr (satisfy_failure.mpr (Or.inr ⟨t, rest, hnext, ha, rfl⟩))⟩

theorem meets_satisfy_atEnd (hc : StandsAt c [] n) :
    ((satisfy expected accept : Parser σ τ).map Value.element).Meets c .fail :=
  ⟨_, map_failure.mpr (satisfy_failure.mpr (Or.inl ⟨hc.atEnd, rfl⟩))⟩

theorem Meets.label {p : Parser σ (Value τ)} {r : Verdict τ} (h : p.Meets c r)
    (expected : String) : (p.label expected).Meets c r := by
  cases r with
  | accept v ts n =>
      obtain ⟨rest, hp, hrest⟩ := h
      exact ⟨rest, label_success.mpr hp, hrest⟩
  | fail =>
      obtain ⟨e, hp⟩ := h
      cases hnext : next? c with
      | none => exact ⟨_, label_failure.mpr ⟨⟨e, hp⟩, Or.inl ⟨hnext, rfl⟩⟩⟩
      | some read => exact ⟨_, label_failure.mpr ⟨⟨e, hp⟩, Or.inr ⟨_, _, hnext, rfl⟩⟩⟩

omit [Describe τ] in
theorem Returns.meets_orElse {p q : Parser σ (Value τ)} {e : ParseError} {r : Verdict τ}
    (hp : p.Returns c (.failure e)) (hq : q.Meets c r) : (p.orElse q).Meets c r := by
  cases r with
  | accept v ts n =>
      obtain ⟨rest, hq, hrest⟩ := hq
      exact ⟨rest, orElse_success.mpr (Or.inr ⟨e, hp, hq⟩), hrest⟩
  | fail =>
      obtain ⟨e', hq⟩ := hq
      exact ⟨e', orElse_failure.mpr ⟨e, hp, hq⟩⟩

end Parser

open ParserKit.Parser

variable [Describe τ] [BEq τ] {interpret : κ → σ → Outcome σ (Value τ)}
  {rules : Rules τ κ}

theorem Parser.Meets.rule {name : String} {body : Grammar τ κ} {c : σ} {r : Verdict τ}
    (h : (body.parser interpret rules).Meets c r) (hbody : rules.lookup name = some body) :
    ((Grammar.rule name).parser interpret rules).Meets c r := by
  cases r with
  | accept v ts n =>
      obtain ⟨rest, hp, hrest⟩ := h
      exact ⟨rest, Grammar.parser_rule_returns.mpr ⟨body, hbody, hp⟩, hrest⟩
  | fail =>
      obtain ⟨e, hp⟩ := h
      exact ⟨e, Grammar.parser_rule_returns.mpr ⟨body, hbody, hp⟩⟩

mutual

/-- **Completeness.** What is derived is returned, on every cursor that stands there. -/
theorem Derives.meets {g : Grammar τ κ} {ts : List τ} {n : Nat} {r : Verdict τ} :
    Derives rules g ts n r → ∀ c : σ, StandsAt c ts n → (g.parser interpret rules).Meets c r
  | .satisfy h, c, hc => meets_satisfy hc h
  | .satisfyRefused h, c, hc => meets_satisfy_refused hc h
  | .satisfyAtEnd, c, hc => meets_satisfy_atEnd hc
  | .token h, c, hc => meets_satisfy hc h
  | .tokenRefused h, c, hc => meets_satisfy_refused hc h
  | .tokenAtEnd, c, hc => meets_satisfy_atEnd hc
  | .anyToken, c, hc => meets_satisfy hc rfl
  | .anyTokenAtEnd, c, hc => meets_satisfy_atEnd hc
  | .endOfInput, c, hc => ⟨c, map_success.mpr ⟨(), endOfInput_success.mpr ⟨hc.atEnd, rfl⟩, rfl⟩, hc⟩
  | .endOfInputRefused, c, hc => by
      obtain ⟨rest, hnext, _⟩ := hc.next
      exact ⟨_, map_failure.mpr (endOfInput_failure.mpr ⟨_, rest, hnext, rfl⟩)⟩
  | .emptyList, c, hc => ⟨c, map_success.mpr ⟨[], returns_emptyList.mpr rfl, rfl⟩, hc⟩
  | .pure, c, hc => ⟨c, returns_pure.mpr rfl, hc⟩
  | .map hg hf, c, hc => by
      obtain ⟨rest, hp, hrest⟩ := hg.meets _ hc
      exact ⟨rest, evaluate_success.mpr (map_success.mpr ⟨_, hp, hf⟩), hrest⟩
  | .mapFail hg, c, hc => by
      obtain ⟨e, hp⟩ := hg.meets _ hc
      exact ⟨e, evaluate_failure.mpr (map_failure.mpr hp)⟩
  | @Derives.apply _ _ _ _ call _ _ _ _ _ _ _ _ v w _ hf ha hcall, c, hc => by
      obtain ⟨mid, hp, hmid⟩ := hf.meets _ hc
      obtain ⟨rest, hq, hrest⟩ := ha.meets _ hmid
      have hcallee : ((_ : Parser σ _).map call).Returns c (.success (call v) mid) :=
        map_success.mpr ⟨v, hp, rfl⟩
      have happly := apply_success.mpr ⟨call v, mid, w, hcallee, hq, hcall⟩
      exact ⟨rest, evaluate_success.mpr happly, hrest⟩
  | .applyFail hf, c, hc => by
      obtain ⟨e, hp⟩ := hf.meets _ hc
      exact ⟨e, evaluate_failure.mpr (apply_failure.mpr (Or.inl (map_failure.mpr hp)))⟩
  | @Derives.applyFailBehind _ _ _ _ call _ _ _ _ _ _ v hf ha, c, hc => by
      obtain ⟨mid, hp, hmid⟩ := hf.meets _ hc
      obtain ⟨e, hq⟩ := ha.meets _ hmid
      refine ⟨e, evaluate_failure.mpr (apply_failure.mpr (Or.inr ⟨call v, mid, ?_, hq⟩))⟩
      exact map_success.mpr ⟨v, hp, rfl⟩
  | .both ha hb, c, hc => by
      obtain ⟨mid, hp, hmid⟩ := ha.meets _ hc
      obtain ⟨rest, hq, hrest⟩ := hb.meets _ hmid
      exact ⟨rest, map_success.mpr ⟨(_, _), both_success.mpr ⟨mid, hp, hq⟩, rfl⟩, hrest⟩
  | .bothFail ha, c, hc => by
      obtain ⟨e, hp⟩ := ha.meets _ hc
      exact ⟨e, map_failure.mpr (both_failure.mpr (Or.inl hp))⟩
  | .bothFailBehind ha hb, c, hc => by
      obtain ⟨mid, hp, hmid⟩ := ha.meets _ hc
      obtain ⟨e, hq⟩ := hb.meets _ hmid
      exact ⟨e, map_failure.mpr (both_failure.mpr (Or.inr ⟨_, mid, hp, hq⟩))⟩
  | .left ha hb, c, hc => by
      obtain ⟨mid, hp, hmid⟩ := ha.meets _ hc
      obtain ⟨rest, hq, hrest⟩ := hb.meets _ hmid
      exact ⟨rest, left_success.mpr ⟨_, mid, hp, hq⟩, hrest⟩
  | .leftFail ha, c, hc => by
      obtain ⟨e, hp⟩ := ha.meets _ hc
      exact ⟨e, left_failure.mpr (Or.inl hp)⟩
  | .leftFailBehind ha hb, c, hc => by
      obtain ⟨mid, hp, hmid⟩ := ha.meets _ hc
      obtain ⟨e, hq⟩ := hb.meets _ hmid
      exact ⟨e, left_failure.mpr (Or.inr ⟨_, mid, hp, hq⟩)⟩
  | .right ha hb, c, hc => by
      obtain ⟨mid, hp, hmid⟩ := ha.meets _ hc
      obtain ⟨rest, hq, hrest⟩ := hb.meets _ hmid
      exact ⟨rest, right_success.mpr ⟨_, mid, hp, hq⟩, hrest⟩
  | .rightFail ha, c, hc => by
      obtain ⟨e, hp⟩ := ha.meets _ hc
      exact ⟨e, right_failure.mpr (Or.inl hp)⟩
  | .rightFailBehind ha hb, c, hc => by
      obtain ⟨mid, hp, hmid⟩ := ha.meets _ hc
      obtain ⟨e, hq⟩ := hb.meets _ hmid
      exact ⟨e, right_failure.mpr (Or.inr ⟨_, mid, hp, hq⟩)⟩
  | .between ha hb he, c, hc => by
      obtain ⟨mid, hp, hmid⟩ := ha.meets _ hc
      obtain ⟨mid', hq, hmid'⟩ := hb.meets _ hmid
      obtain ⟨rest, hr, hrest⟩ := he.meets _ hmid'
      exact ⟨rest, between_success.mpr ⟨_, mid, _, mid', hp, hq, hr⟩, hrest⟩
  | .betweenFail ha, c, hc => by
      obtain ⟨e, hp⟩ := ha.meets _ hc
      exact ⟨e, between_failure.mpr (Or.inl hp)⟩
  | .betweenFailInside ha hb, c, hc => by
      obtain ⟨mid, hp, hmid⟩ := ha.meets _ hc
      obtain ⟨e, hq⟩ := hb.meets _ hmid
      exact ⟨e, between_failure.mpr (Or.inr ⟨_, mid, hp, Or.inl hq⟩)⟩
  | .betweenFailBehind ha hb he, c, hc => by
      obtain ⟨mid, hp, hmid⟩ := ha.meets _ hc
      obtain ⟨mid', hq, hmid'⟩ := hb.meets _ hmid
      obtain ⟨e, hr⟩ := he.meets _ hmid'
      exact ⟨e, between_failure.mpr (Or.inr ⟨_, mid, hp, Or.inr ⟨_, mid', hq, hr⟩⟩)⟩
  | .orElse ha, c, hc => by
      obtain ⟨rest, hp, hrest⟩ := ha.meets _ hc
      exact ⟨rest, orElse_success.mpr (Or.inl hp), hrest⟩
  | .orElseSecond ha hb, c, hc => by
      obtain ⟨e, hp⟩ := ha.meets _ hc
      exact hp.meets_orElse (hb.meets _ hc)
  | .optional hg, c, hc => by
      obtain ⟨rest, hp, hrest⟩ := hg.meets _ hc
      exact ⟨rest, optional_success.mpr (Or.inl hp), hrest⟩
  | .optionalFallback hg, c, hc => by
      obtain ⟨e, hp⟩ := hg.meets _ hc
      exact ⟨c, optional_success.mpr (Or.inr ⟨e, hp, rfl, rfl⟩), hc⟩
  | .oneOrMore hg hrest, c, hc => by
      obtain ⟨mid, hp, hmid⟩ := hg.meets _ hc
      obtain ⟨rest, hrounds, hrest'⟩ := hrest.meets _ hmid
      rw [← hc.2] at hrounds
      have hmore := oneOrMore_success.mpr ⟨_, mid, _, hp, hrounds, rfl⟩
      exact ⟨rest, map_success.mpr ⟨_, hmore, rfl⟩, hrest'⟩
  | .oneOrMoreFail hg, c, hc => by
      obtain ⟨e, hp⟩ := hg.meets _ hc
      exact ⟨e, map_failure.mpr (oneOrMore_failure.mpr hp)⟩
  | .zeroOrMore hg hrest, c, hc => by
      obtain ⟨mid, hp, hmid⟩ := hg.meets _ hc
      obtain ⟨rest, hrounds, hrest'⟩ := hrest.meets _ hmid
      rw [← hc.2] at hrounds
      have hmore := oneOrMore_success.mpr ⟨_, mid, _, hp, hrounds, rfl⟩
      exact ⟨rest, map_success.mpr ⟨_, zeroOrMore_success.mpr (Or.inl hmore), rfl⟩, hrest'⟩
  | .zeroOrMoreNone hg, c, hc => by
      obtain ⟨e, hp⟩ := hg.meets _ hc
      have hnone := zeroOrMore_success.mpr (Or.inr ⟨e, hp, rfl, rfl⟩)
      exact ⟨c, map_success.mpr ⟨[], hnone, rfl⟩, hc⟩
  | .separatedList hi hrest, c, hc => by
      obtain ⟨mid, hp, hmid⟩ := hi.meets _ hc
      obtain ⟨rest, hrounds, hrest'⟩ := hrest.meets _ hmid
      have hlist := separatedList_success.mpr ⟨_, mid, _, hp, hrounds, rfl⟩
      exact ⟨rest, map_success.mpr ⟨_, hlist, rfl⟩, hrest'⟩
  | .separatedListFail hi, c, hc => by
      obtain ⟨e, hp⟩ := hi.meets _ hc
      exact ⟨e, map_failure.mpr (separatedList_failure.mpr hp)⟩
  | .filter hg h, c, hc => by
      obtain ⟨rest, hp, hrest⟩ := hg.meets _ hc
      exact ⟨rest, filter_success.mpr ⟨hp, h⟩, hrest⟩
  | .filterRefused hg h, c, hc => by
      obtain ⟨rest, hp, _⟩ := hg.meets _ hc
      exact ⟨_, filter_failure.mpr (Or.inr ⟨_, rest, hp, h, rfl⟩)⟩
  | .filterFail hg, c, hc => by
      obtain ⟨e, hp⟩ := hg.meets _ hc
      exact ⟨e, filter_failure.mpr (Or.inl hp)⟩
  | .label hg, _, hc => (hg.meets _ hc).label _
  | @Derives.spanned _ _ _ _ _ _ _ n n' _ hg, c, hc => by
      obtain ⟨rest, hp, hrest⟩ := hg.meets _ hc
      have hspan : (⟨n, n'⟩ : Span) = ⟨position c, position rest⟩ := by rw [hc.2, hrest.2]
      exact ⟨rest, map_success.mpr ⟨(_, _), spanned_success.mpr ⟨hp, hspan⟩, rfl⟩, hrest⟩
  | .spannedFail hg, c, hc => by
      obtain ⟨e, hp⟩ := hg.meets _ hc
      exact ⟨e, map_failure.mpr (spanned_failure.mpr hp)⟩
  | .rule hbody h, _, hc => (h.meets _ hc).rule hbody

theorem DerivesAgain.meets {g : Grammar τ κ} {previous n n' : Nat}
    {ts ts' : List τ} {vs : List (Value τ)} : DerivesAgain rules g previous ts n vs ts' n' →
      ∀ c : σ, StandsAt c ts n →
        ∃ rest, (g.parser interpret rules).Rounds previous c vs rest ∧ StandsAt rest ts' n'
  | .still, c, hc => ⟨c, .still hc.2, hc⟩
  | .refused h hg, c, hc => by
      obtain ⟨e, hp⟩ := hg.meets _ hc
      exact ⟨c, .refused (by rwa [hc.2]) hp, hc⟩
  | .again h hg hrest, c, hc => by
      obtain ⟨mid, hp, hmid⟩ := hg.meets _ hc
      obtain ⟨rest, hrounds, hrest'⟩ := hrest.meets _ hmid
      rw [← hc.2] at hrounds
      exact ⟨rest, .again (by rwa [hc.2]) hp hrounds, hrest'⟩

theorem DerivesSeparated.meets {item separator : Grammar τ κ} {n n' : Nat}
    {ts ts' : List τ} {vs : List (Value τ)} : DerivesSeparated rules item separator ts n vs ts' n' →
      ∀ c : σ, StandsAt c ts n →
        ∃ rest, Parser.SeparatedRounds (separator.parser interpret rules)
          (item.parser interpret rules) c vs rest ∧ StandsAt rest ts' n'
  | .noSeparator hs, c, hc => by
      obtain ⟨e, hq⟩ := hs.meets _ hc
      exact ⟨c, .noSeparator hq, hc⟩
  | .noItem hs hi, c, hc => by
      obtain ⟨mid, hq, hmid⟩ := hs.meets _ hc
      obtain ⟨e, hp⟩ := hi.meets _ hmid
      exact ⟨c, .noItem hq hp, hc⟩
  | .still hs hi, c, hc => by
      obtain ⟨mid, hq, hmid⟩ := hs.meets _ hc
      obtain ⟨rest, hp, hrest⟩ := hi.meets _ hmid
      exact ⟨rest, .still hq hp (by rw [hrest.2, hc.2]), hrest⟩
  | .again hs hi h hrest, c, hc => by
      obtain ⟨mid, hq, hmid⟩ := hs.meets _ hc
      obtain ⟨next, hp, hnext⟩ := hi.meets _ hmid
      obtain ⟨rest, hrounds, hrest'⟩ := hrest.meets _ hnext
      exact ⟨rest, .again hq hp (by rwa [hnext.2, hc.2]) hrounds, hrest'⟩

end

end Completeness

/-! ## Uniqueness

A list of tokens and a position are a cursor themselves, so what is known of runs on cursors is
known of derivations. -/

/-- A cursor that is nothing but the tokens to come and a position. -/
structure ListCursor (τ : Type) where
  tokens : List τ
  position : Nat

namespace ListCursor

variable {τ : Type}

instance : Cursor (ListCursor τ) τ where
  next? c :=
    match c.tokens with
    | [] => none
    | t :: ts => some (t, ⟨ts, c.position + 1⟩)
  position := ListCursor.position

instance : LawfulCursor (ListCursor τ) τ where
  upcoming := ListCursor.tokens
  next?_eq_none_iff
    | ⟨[], n⟩ => by simp [Cursor.next?]
    | ⟨t :: ts, n⟩ => by simp [Cursor.next?]
  upcoming_eq_cons {c rest t} h := by
    obtain ⟨_ | ⟨u, us⟩, n⟩ := c
    · cases h
    · cases h
      rfl
  position_next {c rest t} h := by
    obtain ⟨_ | ⟨u, us⟩, n⟩ := c
    · cases h
    · cases h
      rfl

end ListCursor

/-- A parser meets at most one verdict. -/
theorem Parser.Meets.unique {σ τ : Type} [Cursor σ τ] [LawfulCursor σ τ]
    {p : Parser σ (Value τ)} {c : σ} {r r' : Verdict τ} (h : p.Meets c r) (h' : p.Meets c r') :
    r = r' := by
  cases r with
  | accept v ts n =>
      obtain ⟨rest, hp, rfl, rfl⟩ := h
      cases r' with
      | accept v' ts' n' =>
          obtain ⟨rest', hp', rfl, rfl⟩ := h'
          cases hp.unique hp'
          rfl
      | fail =>
          obtain ⟨e, hp'⟩ := h'
          cases hp.unique hp'
  | fail =>
      obtain ⟨e, hp⟩ := h
      cases r' with
      | accept v' ts' n' =>
          obtain ⟨rest', hp', _⟩ := h'
          cases hp.unique hp'
      | fail => rfl

/-- **At most one verdict is derived.** -/
theorem Derives.unique {τ κ : Type} [Describe τ] [BEq τ] {rules : Rules τ κ}
    {g : Grammar τ κ} {ts : List τ} {n : Nat} {r r' : Verdict τ} (h : Derives rules g ts n r)
    (h' : Derives rules g ts n r') : r = r' := by
  -- No function on cursors takes part in a derivation, so any meaning of them will do.
  let interpret : κ → ListCursor τ → Outcome (ListCursor τ) (Value τ) :=
    fun _ c => .failure (.message "" c.position)
  have hc : StandsAt (⟨ts, n⟩ : ListCursor τ) ts n := ⟨rfl, rfl⟩
  have hmeets : (g.parser interpret rules).Meets ⟨ts, n⟩ r := h.meets _ hc
  exact hmeets.unique (h'.meets _ hc)

/-! ## Adequacy -/

section Adequacy

open SourceCursor Cursor

variable {σ τ φ κ : Type} [SourceCursor σ τ φ] [LawfulCursor σ τ] [TokenSource φ τ]
  [LawfulSource σ τ φ] [Describe τ] [BEq τ]

/-- **Adequacy of the rules.** A composed grammar succeeds on a cursor with a value and leaves some
tokens and a position behind exactly if that is derived from what the cursor has left; it fails
exactly if its failure is derived; and it comes back exactly if anything is derived. From any list
and position, at most one verdict is. -/
theorem Grammar.returns_iff_derives (interpret : κ → σ → Outcome σ (Value τ)) (rules : Rules τ κ)
    (g : Grammar τ κ) (hg : Grammar.Composed rules g) (c : σ) :
    (∀ v ts n,
      (∃ rest, (g.parser interpret rules).Returns c (.success v rest)
          ∧ tokens (remaining rest) = ts ∧ position rest = n)
        ↔ Derives rules g (tokens (remaining c)) (position c) (.accept v ts n))
    ∧ ((∃ e, (g.parser interpret rules).Returns c (.failure e))
        ↔ Derives rules g (tokens (remaining c)) (position c) .fail)
    ∧ ((∃ o, (g.parser interpret rules).Returns c o)
        ↔ ∃ r, Derives rules g (tokens (remaining c)) (position c) r)
    ∧ ∀ ts n r r', Derives rules g ts n r → Derives rules g ts n r' → r = r' := by
  -- What is left of the source is what is to come, and `c` stands before it.
  simp only [← LawfulSource.upcoming_eq_tokens]
  have hc : StandsAt c (LawfulCursor.upcoming c) (position c) := ⟨rfl, rfl⟩
  refine ⟨fun v ts n => ⟨?_, fun h => h.meets c hc⟩, ⟨?_, fun h => h.meets c hc⟩, ⟨?_, ?_⟩,
    fun ts n r r' h h' => h.unique h'⟩
  · rintro ⟨rest, hrest, rfl, rfl⟩
    exact hg.derives hrest
  · rintro ⟨e, he⟩
    exact hg.derives he
  · rintro ⟨o, ho⟩
    exact ⟨o.verdict, hg.derives ho⟩
  · rintro ⟨r, hr⟩
    have hmeets : (g.parser interpret rules).Meets c r := hr.meets c hc
    cases r with
    | accept v ts n =>
        obtain ⟨rest, hrest, _⟩ := hmeets
        exact ⟨_, hrest⟩
    | fail =>
        obtain ⟨e, he⟩ := hmeets
        exact ⟨_, he⟩

end Adequacy

/-- Words of `a` with commas between them, each of them as long as it can be, up to a full stop. -/
def wordList : Grammar Char Empty :=
  .left (.separatedList (.rule "word") (.token ',')) (.token '.')

/-- A word is an `a`, with a word behind it if there is one. -/
def wordRules : Rules Char Empty :=
  [("word", .both (.token 'a') (.optional (.rule "word") .unit))]

/-- Adequacy on a text, where a comma is given back, and on tokens of which one has been passed
over, where recursion ends and a value is derived. -/
theorem Grammar.returns_iff_derives_wordList :
    Derives wordRules wordList ['a', ',', '.'] 0 .fail
    ∧ Derives wordRules wordList ['a', 'a', '.', ','] 1
        (.accept (.list [.pair (.element 'a') (.pair (.element 'a') .unit)]) [','] 4) := by
  have hcomposed := Grammar.composed_of_empty wordRules wordList
  constructor
  · have hadequate := Grammar.returns_iff_derives Empty.elim wordRules wordList hcomposed
      (TextCursor.start "a,.")
    exact hadequate.2.1.mp ⟨.unexpected "'.'" "','" 1, 4, rfl⟩
  · have hadequate := Grammar.returns_iff_derives Empty.elim wordRules wordList hcomposed
      (TokenCursor.valid #[',', 'a', 'a', '.', ','] 1)
    exact (hadequate.1 _ _ _).mp
      ⟨TokenCursor.valid #[',', 'a', 'a', '.', ','] 4, ⟨4, rfl⟩, rfl, rfl⟩

end ParserKit

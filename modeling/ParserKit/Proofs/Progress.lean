import ParserKit.Parser.Recursion
import ParserKit.Proofs.Chains
import ParserKit.Proofs.SeparatedRepetition

set_option autoImplicit false

/-! # Repetition of parsers that progress

A parser *progresses* if each of its successes ends behind the place where it started (`Progresses`).
Of the two reasons to stop that a repetition has, only one is then left: it goes on until the parser
fails, and it has moved if it has collected anything (`Progresses.rounds_end`).

Two consequences. The loop of `oneOrMore` does what the usual recursive definition says: the parser
once, and then, if it can be had, the same again (`recurring`). And a repetition of a repetition
collects nothing new: the inner one takes everything, and all that the outer one can add to it is
one empty list, because a repetition that may be empty never fails and only a round that stands
still can end it.
-/

namespace ParserKit.Parser

open Cursor SourceCursor

variable {σ τ φ α : Type}

/-! ## Parsers that progress -/

section Progress

variable [Cursor σ τ]

/-- Wherever its successes lead from `c`, the parser `p` comes back, and its successes there end
behind the place where they started and not beyond the position `limit`. -/
structure Progresses (p : Parser σ α) (c : σ) (limit : Nat) : Prop where
  returns : ∀ {c' : σ}, p.Leads c c' → ∃ o, p.Returns c' o
  moves : ∀ {c' rest : σ} {v : α}, p.Leads c c' → p.Returns c' (.success v rest) →
    position c' < position rest
  within : ∀ {c' rest : σ} {v : α}, p.Leads c c' → p.Returns c' (.success v rest) →
    position rest ≤ limit

namespace Progresses

variable {p : Parser σ α} {c mid rest : σ} {limit : Nat} {v : α} {vs : List α}

theorem advances (h : p.Progresses c limit) : p.Advances c limit where
  returns := h.returns
  forwards hleads hp := Nat.le_of_lt (h.moves hleads hp)
  within := h.within

theorem position_lt (h : p.Progresses c limit) (hp : p.Returns c (.success v mid)) :
    position c < position mid := h.moves .refl hp

/-- Behind a success, the parser goes on progressing. -/
theorem after_success (h : p.Progresses c limit) (hp : p.Returns c (.success v mid)) :
    p.Progresses mid limit := by
  have hstep : p.Leads c mid := Relation.ReflTransGen.single ⟨v, hp⟩
  exact ⟨fun hleads => h.returns (hstep.trans hleads),
    fun hleads => h.moves (hstep.trans hleads), fun hleads => h.within (hstep.trans hleads)⟩

/-- The rounds behind a first success end where the parser fails, and behind the place where that
success started. -/
theorem rounds_end (h : p.Progresses c limit) (hfirst : p.Returns c (.success v mid))
    (hrounds : p.Rounds (position c) mid vs rest) :
    position c < position rest ∧ ∃ e, p.Returns rest (.failure e) := by
  generalize hprevious : position c = previous at hrounds
  induction hrounds generalizing c v with
  | still hpos =>
      -- The round before has moved, so this is no reason to stop.
      have hmoved := h.position_lt hfirst
      omega
  | refused _ hfail =>
      subst hprevious
      exact ⟨h.position_lt hfirst, _, hfail⟩
  | again _ hnext _ ih =>
      obtain ⟨hlt, hfail⟩ := ih (h.after_success hfirst) hnext rfl
      have hmoved := h.position_lt hfirst
      exact ⟨by omega, hfail⟩

/-- A parser that progresses fails at once, or else its repetition comes back with values, has moved,
and ends where the parser fails. -/
theorem failure_or_oneOrMore (h : p.Progresses c limit) :
    (∃ e, p.Returns c (.failure e))
      ∨ ∃ vs rest e, vs ≠ [] ∧ p.oneOrMore.Returns c (.success vs rest)
          ∧ position c < position rest ∧ p.Returns rest (.failure e) := by
  obtain ⟨o, ho⟩ := h.advances.oneOrMore_returns
  cases o with
  | failure e => exact Or.inl ⟨e, oneOrMore_failure.mp ho⟩
  | success vs rest =>
      obtain ⟨v, mid, vs', hfirst, hrounds, rfl⟩ := oneOrMore_success.mp ho
      obtain ⟨hmoved, e, hfail⟩ := h.rounds_end hfirst hrounds
      exact Or.inr ⟨v :: vs', rest, e, List.cons_ne_nil v vs', ho, hmoved, hfail⟩

end Progresses

end Progress

section Sources

variable [SourceCursor σ τ φ] [LawfulCursor σ τ] [TokenSource φ τ] [LawfulSource σ τ φ]

/-- A parser that only reads on, always comes back and never succeeds where it started progresses
from every cursor. -/
theorem Consumes.progresses {p : Parser σ α} (hp : Consumes p)
    (hreturns : ∀ c, ∃ o, p.Returns c o)
    (hmoves : ∀ c v rest, p.Returns c (.success v rest) → rest ≠ c) (c : σ) :
    p.Progresses c (sourceLength c) where
  returns := (hp.advances hreturns c).returns
  moves {c' rest v} _ h := by
    have hreaches : Reaches c' rest := hp c' v rest h
    rcases Nat.lt_or_ge (position c') (position rest) with hlt | hle
    · exact hlt
    · exact absurd (hreaches.eq_of_position_le hle) (hmoves c' v rest h)
  within := (hp.advances hreturns c).within

/-- A parser of one token progresses. -/
theorem progresses_satisfy [Describe τ] (expected : String) (accept : τ → Bool) (c : σ) :
    (satisfy expected accept : Parser σ τ).Progresses c (sourceLength c) := by
  refine (consumes_satisfy expected accept).progresses (fun c => ⟨_, 0, rfl⟩) ?_ c
  rintro c v rest h rfl
  have hmoved := LawfulCursor.position_next (satisfy_success.mp h).1
  omega

end Sources

/-! ## The recursive definition -/

section Recursion

/-- What the repetition of `p` is, said of `self` that stands for the repetition: `p`, and its value
put in front of those of `self`, or of none where `self` fails. -/
def recurringBody (p : Parser σ α) (self : Unit → Parser σ (List α)) (_ : Unit) :
    Parser σ (List α) :=
  (p.map Combine.extend).apply ((delay self).optional [])

theorem local_recurringBody (p : Parser σ α) : Local (recurringBody p) := by
  intro n self self' hself _
  have hlater : Below n ((delay self).optional []) ((delay self').optional []) :=
    (Below.delay (hself ())).optional []
  exact (Below.refl n _).apply hlater

/-- The values of `p` as often as it can be had, at least once, by recursion. -/
def recurring (p : Parser σ α) : Parser σ (List α) :=
  fix (recurringBody p) (local_recurringBody p) ()

variable {p : Parser σ α} {c mid rest : σ} {v : α} {vs : List α} {e : ParseError}

theorem returns_recurring {o : Outcome σ (List α)} :
    p.recurring.Returns c o ↔
      ((p.map Combine.extend).apply (p.recurring.optional [])).Returns c o :=
  returns_fix (local_recurringBody p) () c o

/-- The recursive repetition fails exactly if its first round does. -/
theorem recurring_failure : p.recurring.Returns c (.failure e) ↔ p.Returns c (.failure e) := by
  rw [returns_recurring]
  simp

/-- A first value is followed by those of the same repetition behind it, or by none. -/
theorem recurring_of_success (hfirst : p.Returns c (.success v mid))
    (hlater : (p.recurring.optional []).Returns mid (.success vs rest)) :
    p.recurring.Returns c (.success (v :: vs) rest) := by
  rw [returns_recurring, apply_success]
  exact ⟨Combine.extend v, mid, vs, map_success.mpr ⟨v, hfirst, rfl⟩, hlater, rfl⟩

variable [Cursor σ τ] {limit : Nat}

/-- The rounds of the loop are the levels of the recursion. -/
theorem Progresses.recurring_of_rounds (h : p.Progresses c limit)
    (hfirst : p.Returns c (.success v mid)) (hrounds : p.Rounds (position c) mid vs rest) :
    p.recurring.Returns c (.success (v :: vs) rest) := by
  generalize hprevious : position c = previous at hrounds
  induction hrounds generalizing c v with
  | still hpos =>
      have hmoved := h.position_lt hfirst
      omega
  | refused _ hfail =>
      -- The level below fails as `p` does, and the fallback of this one takes over.
      have hbelow := recurring_failure.mpr hfail
      exact recurring_of_success hfirst (optional_success.mpr (Or.inr ⟨_, hbelow, rfl, rfl⟩))
  | again _ hnext _ ih =>
      have hbelow := ih (h.after_success hfirst) hnext rfl
      exact recurring_of_success hfirst (optional_success.mpr (Or.inl hbelow))

/-- Where the loop comes back, the recursion comes back with the same. -/
theorem Progresses.recurring_of_oneOrMore (h : p.Progresses c limit) {o : Outcome σ (List α)}
    (ho : p.oneOrMore.Returns c o) : p.recurring.Returns c o := by
  cases o with
  | failure e => exact recurring_failure.mpr (oneOrMore_failure.mp ho)
  | success vs rest =>
      obtain ⟨v, mid, vs', hfirst, hrounds, rfl⟩ := oneOrMore_success.mp ho
      exact h.recurring_of_rounds hfirst hrounds

/-- If a first round moves, or there is none, a repetition is a first value and a repetition that
may be empty. -/
theorem returns_oneOrMore_iff_extend
    (hmoves : ∀ v rest, p.Returns c (.success v rest) → position rest ≠ position c)
    (o : Outcome σ (List α)) :
    p.oneOrMore.Returns c o ↔ ((p.map Combine.extend).apply p.zeroOrMore).Returns c o := by
  cases o with
  | failure e =>
      simp only [oneOrMore_failure, apply_failure, map_failure, zeroOrMore_failure, and_false,
        exists_false, or_false]
  | success vs rest =>
      simp only [oneOrMore_success, apply_success, map_success]
      constructor
      · rintro ⟨v, mid, vs, hfirst, hrounds, rfl⟩
        have hlater := (rounds_iff_zeroOrMore (hmoves v mid hfirst)).mp hrounds
        exact ⟨_, mid, vs, ⟨v, hfirst, rfl⟩, hlater, rfl⟩
      · rintro ⟨_, mid, vs, ⟨v, hfirst, rfl⟩, hlater, rfl⟩
        have hrounds := (rounds_iff_zeroOrMore (hmoves v mid hfirst)).mpr hlater
        exact ⟨v, mid, vs, hfirst, hrounds, rfl⟩

end Recursion

/-! ## The loop and the recursion agree -/

section Agreement

variable [SourceCursor σ τ φ]

/-- **The loop does what the recursive definition says.** If `p` progresses from `c` within its
source, the recursive repetition comes back, and the loop returns the same outcome: the same values
and the same cursor, or the same error. Whatever `p` does elsewhere, on a cursor where it fails or
changes the position the loop is `p` and a repetition that may be empty, also if later rounds stand
still. -/
theorem oneOrMore_refines_recursion (p : Parser σ α) (c : σ) :
    (p.Progresses c (sourceLength c) →
      (∃ o, p.recurring.Returns c o) ∧ ∀ o, p.oneOrMore.Returns c o ↔ p.recurring.Returns c o)
    ∧ ((∀ v rest, p.Returns c (.success v rest) → position rest ≠ position c) →
      ∀ o, p.oneOrMore.Returns c o ↔
        ((p.map Combine.extend).apply p.zeroOrMore).Returns c o) := by
  refine ⟨fun h => ?_, fun hmoves o => returns_oneOrMore_iff_extend hmoves o⟩
  -- The loop comes back, and since both return at most one outcome the other direction follows.
  obtain ⟨o, ho⟩ := h.advances.oneOrMore_returns
  have hrecurring : p.recurring.Returns c o := h.recurring_of_oneOrMore ho
  refine ⟨⟨o, hrecurring⟩, fun o' => ⟨h.recurring_of_oneOrMore, fun ho' => ?_⟩⟩
  rw [ho'.unique hrecurring]
  exact ho

/-- Two characters are taken by the loop and by the recursion alike; and where a third round stands
still, the loop is still a first value and a repetition behind it. -/
theorem oneOrMore_refines_recursion_letters :
    (token 'a').recurring.Returns (TextCursor.start "aab")
        (.success ['a', 'a'] (advance 2 (TextCursor.start "aab")))
    ∧ ((((token 'a').optional '-').map Combine.extend).apply
        ((token 'a').optional '-').zeroOrMore).Returns (TextCursor.start "aab")
        (.success ['a', 'a', '-'] (advance 2 (TextCursor.start "aab"))) := by
  constructor
  · have h := oneOrMore_refines_recursion (token 'a') (TextCursor.start "aab")
    exact ((h.1 (progresses_satisfy _ _ _)).2 _).mp ⟨4, rfl⟩
  · have h := oneOrMore_refines_recursion ((token 'a').optional '-') (TextCursor.start "aab")
    refine (h.2 ?_ _).mp ⟨4, rfl⟩
    intro v rest hsuccess
    have hrun : ((token 'a').optional '-').Returns (TextCursor.start "aab")
        (.success 'a' (advance 1 (TextCursor.start "aab"))) := ⟨0, rfl⟩
    cases hsuccess.unique hrun
    decide

/-! ## Repetitions of repetitions -/

/-- **Nested repetitions come back and take nothing else.** Let `p` progress from `c` within its
source, and let `vs` and `rest` be what the repetition of `p` that may be empty returns. Then the
repetition of that repetition ends at `rest` too; it collects `vs` and one empty list, or only the
empty list if `vs` is empty. The repetition of `p` at least once, at least once, ends at `rest` with
`vs` alone; if `vs` is empty it fails with the error of `p`. -/
theorem nested_repetition_collapses (p : Parser σ α) (c : σ)
    (h : p.Progresses c (sourceLength c)) :
    ∃ vs rest, p.zeroOrMore.Returns c (.success vs rest)
      ∧ (vs = [] → p.zeroOrMore.zeroOrMore.Returns c (.success [[]] rest)
        ∧ ∃ e, p.Returns c (.failure e) ∧ p.oneOrMore.oneOrMore.Returns c (.failure e))
      ∧ (vs ≠ [] → p.zeroOrMore.zeroOrMore.Returns c (.success [vs, []] rest)
        ∧ p.oneOrMore.oneOrMore.Returns c (.success [vs] rest)) := by
  obtain ⟨e, hfail⟩ | ⟨vs, rest, e, hne, hone, hmoved, hfail⟩ := h.failure_or_oneOrMore
  · -- The inner repetition stands still at once.
    have hzero := zeroOrMore_of_failure hfail
    have hnested : p.zeroOrMore.zeroOrMore.Returns c (.success [[]] c) :=
      zeroOrMore_of_rounds hzero (.still rfl)
    have hrefused : p.oneOrMore.oneOrMore.Returns c (.failure e) :=
      oneOrMore_failure.mpr (oneOrMore_failure.mpr hfail)
    exact ⟨[], c, hzero, fun _ => ⟨hnested, e, hfail, hrefused⟩, fun hne => absurd rfl hne⟩
  · -- The inner repetition has taken all there is. Behind it, the one that may be empty stands
    -- still in a second round, and the other one fails.
    have hzero : p.zeroOrMore.Returns c (.success vs rest) := zeroOrMore_success.mpr (Or.inl hone)
    have hpos : position rest ≠ position c := by omega
    have hagain : p.zeroOrMore.Rounds (position c) rest [[]] rest :=
      .again hpos (zeroOrMore_of_failure hfail) (.still rfl)
    have hstops : p.oneOrMore.Rounds (position c) rest [] rest :=
      .refused hpos (oneOrMore_failure.mpr hfail)
    refine ⟨vs, rest, hzero, fun hnil => absurd hnil hne, fun _ => ⟨?_, ?_⟩⟩
    · exact zeroOrMore_of_rounds hzero hagain
    · exact oneOrMore_success.mpr ⟨vs, rest, [], hone, hstops, rfl⟩

/-- On a text that begins with two of the characters, and on one that begins with none. -/
theorem nested_repetition_collapses_letters :
    (token 'a').zeroOrMore.zeroOrMore.Returns (TextCursor.start "aab")
        (.success [['a', 'a'], []] (advance 2 (TextCursor.start "aab")))
    ∧ (token 'a').oneOrMore.oneOrMore.Returns (TextCursor.start "aab")
        (.success [['a', 'a']] (advance 2 (TextCursor.start "aab")))
    ∧ (token 'a').zeroOrMore.zeroOrMore.Returns (TextCursor.start "b")
        (.success [[]] (TextCursor.start "b"))
    ∧ (token 'a').oneOrMore.oneOrMore.Returns (TextCursor.start "b")
        (.failure (.unexpected "'a'" "'b'" 0)) := by
  obtain ⟨vs, rest, hzero, -, hmore⟩ := nested_repetition_collapses (token 'a')
    (TextCursor.start "aab") (progresses_satisfy _ _ _)
  have htwo : (token 'a').zeroOrMore.Returns (TextCursor.start "aab")
      (.success ['a', 'a'] (advance 2 (TextCursor.start "aab"))) := ⟨4, rfl⟩
  cases hzero.unique htwo
  obtain ⟨vs, rest, hzero, hnone, -⟩ := nested_repetition_collapses (token 'a')
    (TextCursor.start "b") (progresses_satisfy _ _ _)
  have hempty : (token 'a').zeroOrMore.Returns (TextCursor.start "b")
      (.success [] (TextCursor.start "b")) := ⟨0, rfl⟩
  cases hzero.unique hempty
  obtain ⟨hnested, e, hfail, hrefused⟩ := hnone rfl
  have herror : (token 'a').Returns (TextCursor.start "b")
      (.failure (.unexpected "'a'" "'b'" 0)) := ⟨0, rfl⟩
  cases hfail.unique herror
  exact ⟨(hmore (by simp)).1, (hmore (by simp)).2, hnested, hrefused⟩

end Agreement

end ParserKit.Parser

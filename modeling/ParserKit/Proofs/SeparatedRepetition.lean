import ParserKit.Combine
import ParserKit.Cursor.Text
import ParserKit.Proofs.Rounds

set_option autoImplicit false

/-! # Separated lists as repetitions

There are two loops in this library, that of `oneOrMore` and that of `separatedList`. They are
written differently: the first one looks before a round whether the last one has moved, the second
one looks behind a round, and a repetition that may be empty is a choice besides. Nevertheless a
separated list is nothing but an item and the repetition of a separator followed by an item, for
all parsers, those included that stand still or go back
(`Parser.separatedList_eq_extend_zeroOrMore`).

The two descriptions by rounds meet at `zeroOrMore`: behind a round that has moved, the further
rounds are what `zeroOrMore` returns there.
-/

namespace ParserKit.Parser

open Cursor

variable {σ τ α β : Type} [Cursor σ τ]

/-! ## Rounds and `zeroOrMore` -/

theorem zeroOrMore_of_failure {p : Parser σ α} {c : σ} {e : ParseError}
    (h : p.Returns c (.failure e)) : p.zeroOrMore.Returns c (.success [] c) :=
  zeroOrMore_success.mpr (Or.inr ⟨e, h, rfl, rfl⟩)

theorem zeroOrMore_of_rounds {p : Parser σ α} {c mid rest : σ} {v : α} {vs : List α}
    (hfirst : p.Returns c (.success v mid)) (h : p.Rounds (position c) mid vs rest) :
    p.zeroOrMore.Returns c (.success (v :: vs) rest) :=
  zeroOrMore_success.mpr (Or.inl (oneOrMore_success.mpr ⟨v, mid, vs, hfirst, h, rfl⟩))

/-- Behind a round that has moved, the further rounds are those of `zeroOrMore`. -/
theorem rounds_iff_zeroOrMore {p : Parser σ α} {previous : Nat} {c rest : σ} {vs : List α}
    (hmoved : position c ≠ previous) :
    p.Rounds previous c vs rest ↔ p.zeroOrMore.Returns c (.success vs rest) := by
  constructor
  · intro h
    cases h with
    | still hpos => exact absurd hpos hmoved
    | refused _ hfail => exact zeroOrMore_of_failure hfail
    | again _ hfirst hrest => exact zeroOrMore_of_rounds hfirst hrest
  · intro h
    obtain hmore | ⟨e, hfail, rfl, rfl⟩ := zeroOrMore_success.mp h
    · obtain ⟨v, mid, vs, hfirst, hrest, rfl⟩ := oneOrMore_success.mp hmore
      exact .again hmoved hfirst hrest
    · exact .refused hmoved hfail

namespace SeparatedRounds

variable {separator : Parser σ β} {item : Parser σ α} {c mid rest : σ} {v : α} {vs : List α}

/-- Rounds of a separator and an item are what the repetition of both together returns. -/
theorem zeroOrMore (h : SeparatedRounds separator item c vs rest) :
    (separator.right item).zeroOrMore.Returns c (.success vs rest) := by
  induction h with
  | noSeparator hs => exact zeroOrMore_of_failure (right_failure.mpr (Or.inl hs))
  | noItem hs hi => exact zeroOrMore_of_failure (right_failure.mpr (Or.inr ⟨_, _, hs, hi⟩))
  | still hs hi hpos =>
      exact zeroOrMore_of_rounds (right_success.mpr ⟨_, _, hs, hi⟩) (.still hpos)
  | again hs hi hpos _ ih =>
      have hrounds := (rounds_iff_zeroOrMore hpos).mpr ih
      exact zeroOrMore_of_rounds (right_success.mpr ⟨_, _, hs, hi⟩) hrounds

/-- Where a separator followed by an item fails, there is no round. -/
theorem of_failure {e : ParseError} (h : (separator.right item).Returns c (.failure e)) :
    SeparatedRounds separator item c [] c := by
  obtain hs | ⟨s, mid, hs, hi⟩ := right_failure.mp h
  · exact .noSeparator hs
  · exact .noItem hs hi

/-- A round of both together, and rounds behind it, are rounds of a separator and an item. -/
theorem of_rounds (hfirst : (separator.right item).Returns c (.success v mid))
    (h : (separator.right item).Rounds (position c) mid vs rest) :
    SeparatedRounds separator item c (v :: vs) rest := by
  generalize hprevious : position c = previous at h
  induction h generalizing c v with
  | still hpos =>
      obtain ⟨s, behind, hs, hi⟩ := right_success.mp hfirst
      exact .still hs hi (hpos.trans hprevious.symm)
  | refused hpos hfail =>
      obtain ⟨s, behind, hs, hi⟩ := right_success.mp hfirst
      subst hprevious
      exact .again hs hi hpos (of_failure hfail)
  | again hpos hnext _ ih =>
      obtain ⟨s, behind, hs, hi⟩ := right_success.mp hfirst
      subst hprevious
      exact .again hs hi hpos (ih hnext rfl)

end SeparatedRounds

theorem separatedRounds_iff_zeroOrMore {separator : Parser σ β} {item : Parser σ α} {c rest : σ}
    {vs : List α} :
    SeparatedRounds separator item c vs rest ↔
      (separator.right item).zeroOrMore.Returns c (.success vs rest) := by
  constructor
  · exact SeparatedRounds.zeroOrMore
  · intro h
    obtain hmore | ⟨e, hfail, rfl, rfl⟩ := zeroOrMore_success.mp h
    · obtain ⟨v, mid, vs, hfirst, hrounds, rfl⟩ := oneOrMore_success.mp hmore
      exact .of_rounds hfirst hrounds
    · exact .of_failure hfail

/-! ## How a list ends -/

/-- From `c` on, a list of items has come to `d` with the values `vs`: by a first item and rounds of
a separator and an item that have moved. -/
inductive Collected (item : Parser σ α) (separator : Parser σ β) (c : σ) : List α → σ → Prop where
  | first {d : σ} {v : α} (h : item.Returns c (.success v d)) : Collected item separator c [v] d
  | round {d mid next : σ} {s : β} {v : α} {vs : List α} (h : Collected item separator c vs d)
      (hs : separator.Returns d (.success s mid)) (hi : item.Returns mid (.success v next))
      (hmoved : position next ≠ position d) : Collected item separator c (vs ++ [v]) next

/-- The list consists of what it has collected and of the rounds that follow. -/
theorem Collected.separatedList {item : Parser σ α} {separator : Parser σ β} {c d rest : σ}
    {vs ws : List α} (h : Collected item separator c vs d)
    (hrest : SeparatedRounds separator item d ws rest) :
    (item.separatedList separator).Returns c (.success (vs ++ ws) rest) := by
  induction h generalizing ws rest with
  | first hfirst => exact separatedList_success.mpr ⟨_, _, _, hfirst, hrest, rfl⟩
  | round _ hs hi hmoved ih =>
      rw [List.append_assoc]
      exact ih (.again hs hi hmoved hrest)

/-! ## The two loops agree -/

/-- **A separated list is an item and the repetition of a separator followed by an item**, for all
parsers and on every cursor: one of the two returns an outcome exactly if the other one returns the
same. In particular, wherever the list has come to, a separator without an item behind it is left
unread, and a round that ends at the position where it started adds its value and is the last. -/
theorem separatedList_eq_extend_zeroOrMore (item : Parser σ α) (separator : Parser σ β) (c : σ) :
    (∀ o, (item.separatedList separator).Returns c o ↔
      ((item.map Combine.extend).apply (separator.right item).zeroOrMore).Returns c o)
    ∧ ((∃ o, (item.separatedList separator).Returns c o) ↔
      ∃ o, ((item.map Combine.extend).apply (separator.right item).zeroOrMore).Returns c o)
    ∧ ∀ vs d, Collected item separator c vs d →
      (∀ s mid e, separator.Returns d (.success s mid) → item.Returns mid (.failure e) →
        (item.separatedList separator).Returns c (.success vs d))
      ∧ ∀ s mid v rest, separator.Returns d (.success s mid) →
        item.Returns mid (.success v rest) → position rest = position d →
        (item.separatedList separator).Returns c (.success (vs ++ [v]) rest) := by
  have hagree : ∀ o, (item.separatedList separator).Returns c o ↔
      ((item.map Combine.extend).apply (separator.right item).zeroOrMore).Returns c o := by
    intro o
    cases o with
    | success vs rest =>
        simp only [separatedList_success, separatedRounds_iff_zeroOrMore, apply_success,
          map_success]
        constructor
        · rintro ⟨v, mid, vs, hfirst, hrest, rfl⟩
          exact ⟨_, mid, vs, ⟨v, hfirst, rfl⟩, hrest, rfl⟩
        · rintro ⟨_, mid, vs, ⟨v, hfirst, rfl⟩, hrest, rfl⟩
          exact ⟨v, mid, vs, hfirst, hrest, rfl⟩
    | failure e =>
        -- The repetition cannot fail, so that only the first item can.
        simp only [separatedList_failure, apply_failure, map_failure, zeroOrMore_failure,
          and_false, exists_false, or_false]
  refine ⟨hagree, exists_congr hagree, fun vs d hcollected => ⟨?_, ?_⟩⟩
  · intro s mid e hs hi
    simpa using hcollected.separatedList (.noItem hs hi)
  · intro s mid v rest hs hi hpos
    exact hcollected.separatedList (.still hs hi hpos)

/-- A separator at the end is left unread, and parsers that stand still make two values: so say the
list and the repetition alike. -/
theorem separatedList_eq_extend_zeroOrMore_trailing :
    (((token 'a').map Combine.extend).apply ((token ';').right (token 'a')).zeroOrMore).Returns
        (TextCursor.start "a;a;") (.success ['a', 'a'] (advance 3 (TextCursor.start "a;a;")))
    ∧ (((Parser.pure 1).map Combine.extend).apply
        ((Parser.pure ()).right (Parser.pure 1)).zeroOrMore).Returns
        (TextCursor.start "a;a;") (.success [1, 1] (TextCursor.start "a;a;")) := by
  constructor
  · obtain ⟨hagree, -, hends⟩ := separatedList_eq_extend_zeroOrMore
      (token 'a') (token ';') (TextCursor.start "a;a;")
    have hfirst : Collected (token 'a') (token ';') (TextCursor.start "a;a;") ['a']
        (advance 1 (TextCursor.start "a;a;")) := .first ⟨0, rfl⟩
    have hseparator : (token ';').Returns (advance 1 (TextCursor.start "a;a;"))
        (.success ';' (advance 2 (TextCursor.start "a;a;"))) := ⟨0, rfl⟩
    have hitem : (token 'a').Returns (advance 2 (TextCursor.start "a;a;"))
        (.success 'a' (advance 3 (TextCursor.start "a;a;"))) := ⟨0, rfl⟩
    have hcollected := hfirst.round hseparator hitem (by decide)
    have hmissing := (hends _ _ hcollected).1 ';' (advance 4 (TextCursor.start "a;a;"))
      (.endOfInput "'a'" 4) ⟨0, rfl⟩ ⟨0, rfl⟩
    exact (hagree _).mp hmissing
  · obtain ⟨hagree, -, hends⟩ := separatedList_eq_extend_zeroOrMore
      (Parser.pure 1) (Parser.pure ()) (TextCursor.start "a;a;")
    have hstill := (hends [1] _ (.first (returns_pure.mpr rfl))).2 () (TextCursor.start "a;a;") 1
      (TextCursor.start "a;a;") (returns_pure.mpr rfl) (returns_pure.mpr rfl) rfl
    exact (hagree _).mp hstill

end ParserKit.Parser

import Mathlib.Logic.Relation
import ParserKit.Proofs.Consumption

set_option autoImplicit false

/-! # The chain behind a repetition

`oneOrMore p` runs `p` at one place after the other. Here this is said without the loop: the values
that it collects are those of a *chain* of successes, numbered from `0`, in which all but the last
one move and which could not be longer (`Chain`). A repetition succeeds exactly with the values and
the last place of such a chain, for every parser `p` whatsoever, and fails exactly if `p` does.

Whether a repetition comes back at all depends on `p`. It does if the successes of `p` go forwards
and stay within the source (`Advances`): each of them but the last then takes a token at least, so
that the number of values is bounded by the number of tokens.
-/

namespace ParserKit.Parser

open Cursor SourceCursor

variable {σ τ φ α : Type}

/-! ## Chains of successes -/

section Chains

variable [Cursor σ τ]

/-- From `places 0` on, `p` succeeds with one of the values `vs` after the other, the value `vs[i]`
leading from `places i` to `places (i + 1)`. All successes but the last one move, and the last one
does not or there is no further one. -/
structure Chain (p : Parser σ α) (places : Nat → σ) (vs : List α) : Prop where
  nonempty : 1 ≤ vs.length
  step : ∀ (i : Nat) (hi : i < vs.length),
    p.Returns (places i) (.success vs[i] (places (i + 1)))
  moves : ∀ i, i + 1 < vs.length → position (places (i + 1)) ≠ position (places i)
  stops : position (places vs.length) = position (places (vs.length - 1))
    ∨ ∃ e, p.Returns (places vs.length) (.failure e)

/-- The places of a chain with one more in front. -/
def behind (c : σ) (places : Nat → σ) : Nat → σ
  | 0 => c
  | i + 1 => places i

@[simp] theorem behind_succ (c : σ) (places : Nat → σ) (i : Nat) :
    behind c places (i + 1) = places i := rfl

namespace Chain

variable {p : Parser σ α} {c mid rest : σ} {places : Nat → σ} {v : α} {vs : List α}

/-- A success that cannot be followed by another one is a chain. -/
theorem single (h : p.Returns c (.success v mid))
    (hstops : position mid = position c ∨ ∃ e, p.Returns mid (.failure e)) :
    p.Chain (behind c fun _ => mid) [v] where
  nonempty := Nat.le_refl 1
  step i hi := by
    obtain rfl : i = 0 := by simpa using hi
    exact h
  moves i hi := by simp at hi
  stops := hstops

/-- A success that moves can be put in front of a chain. -/
theorem cons (h : p.Returns c (.success v (places 0)))
    (hmoves : position (places 0) ≠ position c) (hchain : p.Chain places vs) :
    p.Chain (behind c places) (v :: vs) where
  nonempty := by simp
  step i hi := by
    cases i with
    | zero => exact h
    | succ i => exact hchain.step i (by simpa using hi)
  moves i hi := by
    cases i with
    | zero => exact hmoves
    | succ i => exact hchain.moves i (by simpa using hi)
  stops := by
    -- The chain behind is not empty, so its last two places are the last two of the whole.
    have hnonempty := hchain.nonempty
    have hlast : vs.length = vs.length - 1 + 1 := by omega
    have hprevious : behind c places vs.length = places (vs.length - 1) := by
      rw [hlast, behind_succ, Nat.add_sub_cancel]
    simpa [hprevious] using hchain.stops

/-- A chain of several successes goes on behind the first one. -/
theorem tail {w : α} (h : p.Chain places (v :: w :: vs)) :
    p.Chain (fun i => places (i + 1)) (w :: vs) where
  nonempty := by simp
  step i hi := h.step (i + 1) (Nat.succ_lt_succ hi)
  moves i hi := h.moves (i + 1) (Nat.succ_lt_succ hi)
  stops := h.stops

/-- The rounds behind a first success make a chain with it. -/
theorem of_rounds (hfirst : p.Returns c (.success v mid))
    (h : p.Rounds (position c) mid vs rest) :
    ∃ places, places 0 = c ∧ places (v :: vs).length = rest ∧ p.Chain places (v :: vs) := by
  generalize hprevious : position c = previous at h
  induction h generalizing c v with
  | still hpos =>
      exact ⟨_, rfl, rfl, single hfirst (Or.inl (hpos.trans hprevious.symm))⟩
  | refused _ hfail => exact ⟨_, rfl, rfl, single hfirst (Or.inr ⟨_, hfail⟩)⟩
  | again hpos hnext _ ih =>
      obtain ⟨places, hplace, hlast, hchain⟩ := ih hnext rfl
      subst hplace hprevious
      exact ⟨behind c places, rfl, hlast, cons hfirst hpos hchain⟩

/-- What stands in a chain behind its first success are rounds. -/
theorem rounds (h : p.Chain places (v :: vs)) :
    p.Rounds (position (places 0)) (places 1) vs (places (v :: vs).length) := by
  induction vs generalizing places v with
  | nil =>
      by_cases hpos : position (places 1) = position (places 0)
      · exact .still hpos
      · obtain hstill | ⟨e, hfail⟩ := h.stops
        · exact absurd hstill hpos
        · exact .refused hpos hfail
  | cons w vs ih => exact .again (h.moves 0 (by simp)) (h.step 1 (by simp)) (ih h.tail)

end Chain

/-- **A repetition succeeds exactly with the values of a chain**, and ends at its last place. -/
theorem oneOrMore_success_iff_chain {p : Parser σ α} {c rest : σ} {vs : List α} :
    p.oneOrMore.Returns c (.success vs rest) ↔
      ∃ places, places 0 = c ∧ places vs.length = rest ∧ p.Chain places vs := by
  rw [oneOrMore_success]
  constructor
  · rintro ⟨v, mid, vs, hfirst, hrounds, rfl⟩
    exact Chain.of_rounds hfirst hrounds
  · rintro ⟨places, rfl, rfl, hchain⟩
    cases vs with
    | nil => exact absurd hchain.nonempty (by simp)
    | cons v vs => exact ⟨v, places 1, vs, hchain.step 0 (by simp), hchain.rounds, rfl⟩

end Chains

/-! ## Parsers that advance -/

section Advances

variable [Cursor σ τ]

/-- Running `p` again and again can lead from `c` to `c'`. -/
def Leads (p : Parser σ α) : σ → σ → Prop :=
  Relation.ReflTransGen fun a b => ∃ v, p.Returns a (.success v b)

/-- Wherever its successes lead from `c`, the parser `p` comes back, and its successes there go
forwards and not beyond the position `limit`. -/
structure Advances (p : Parser σ α) (c : σ) (limit : Nat) : Prop where
  returns : ∀ {c' : σ}, p.Leads c c' → ∃ o, p.Returns c' o
  forwards : ∀ {c' rest : σ} {v : α}, p.Leads c c' → p.Returns c' (.success v rest) →
    position c' ≤ position rest
  within : ∀ {c' rest : σ} {v : α}, p.Leads c c' → p.Returns c' (.success v rest) →
    position rest ≤ limit

/-- The places of a chain are places where its parser leads. -/
theorem Chain.leads {p : Parser σ α} {places : Nat → σ} {vs : List α} (h : p.Chain places vs)
    {i : Nat} (hi : i ≤ vs.length) : p.Leads (places 0) (places i) := by
  induction i with
  | zero => exact .refl
  | succ i ih => exact (ih (Nat.le_of_succ_le hi)).tail ⟨_, h.step i hi⟩

namespace Advances

variable {p : Parser σ α} {c : σ} {limit : Nat}

/-- There are rounds behind every success. Each of them brings the start of the last round nearer to
the limit, and `gap` counts how near it is. -/
theorem exists_rounds (h : p.Advances c limit) {gap previous : Nat} {c' : σ}
    (hleads : p.Leads c c') (hprevious : previous ≤ position c') (hlimit : position c' ≤ limit)
    (hgap : limit < previous + gap) : ∃ vs rest, p.Rounds previous c' vs rest := by
  induction gap generalizing previous c' with
  | zero => omega
  | succ gap ih =>
      by_cases hpos : position c' = previous
      · exact ⟨[], c', .still hpos⟩
      · obtain ⟨o, ho⟩ := h.returns hleads
        cases o with
        | failure e => exact ⟨[], c', .refused hpos ho⟩
        | success v mid =>
            have hforwards := h.forwards hleads ho
            have hwithin := h.within hleads ho
            obtain ⟨vs, rest, hrounds⟩ := ih (hleads.tail ⟨v, ho⟩) hforwards hwithin (by omega)
            exact ⟨v :: vs, rest, .again hpos ho hrounds⟩

/-- The repetition of a parser that advances comes back. -/
theorem oneOrMore_returns (h : p.Advances c limit) : ∃ o, p.oneOrMore.Returns c o := by
  have hhere : p.Leads c c := .refl
  obtain ⟨o, ho⟩ := h.returns hhere
  cases o with
  | failure e => exact ⟨_, oneOrMore_failure.mpr ho⟩
  | success v mid =>
      have hforwards := h.forwards hhere ho
      have hwithin := h.within hhere ho
      have hgap : limit < position c + (limit + 1) := by omega
      obtain ⟨vs, rest, hrounds⟩ :=
        h.exists_rounds (hhere.tail ⟨v, ho⟩) hforwards hwithin hgap
      exact ⟨_, oneOrMore_success.mpr ⟨v, mid, vs, ho, hrounds, rfl⟩⟩

/-- Along a chain, every success but the last one takes a token at least. -/
theorem chain_moves (h : p.Advances c limit) {places : Nat → σ} {vs : List α}
    (hstart : places 0 = c) (hchain : p.Chain places vs) {i : Nat} (hi : i + 1 < vs.length) :
    position (places i) + 1 ≤ position (places (i + 1)) := by
  subst hstart
  have hi' : i < vs.length := by omega
  have hforwards := h.forwards (hchain.leads (Nat.le_of_lt hi')) (hchain.step i hi')
  have hmoves := hchain.moves i hi
  omega

/-- So the position counts the successes of a chain, all but the last one. -/
theorem add_le_position (h : p.Advances c limit) {places : Nat → σ} {vs : List α}
    (hstart : places 0 = c) (hchain : p.Chain places vs) {i : Nat} (hi : i < vs.length) :
    position c + i ≤ position (places i) := by
  induction i with
  | zero =>
      rw [hstart]
      exact Nat.le_refl _
  | succ i ih =>
      calc position c + (i + 1) = position c + i + 1 := by omega
        _ ≤ position (places i) + 1 := Nat.succ_le_succ (ih (by omega))
        _ ≤ position (places (i + 1)) := h.chain_moves hstart hchain hi

/-- A chain has at most one value more than it takes tokens. -/
theorem length_le (h : p.Advances c limit) {places : Nat → σ} {vs : List α}
    (hstart : places 0 = c) (hchain : p.Chain places vs) :
    vs.length + position c ≤ position (places vs.length) + 1 := by
  have hnonempty := hchain.nonempty
  obtain ⟨n, hn⟩ : ∃ n, vs.length = n + 1 := ⟨vs.length - 1, by omega⟩
  have hlast : n < vs.length := by omega
  have hcount : position c + n ≤ position (places n) := h.add_le_position hstart hchain hlast
  have hforwards : position (places n) ≤ position (places (n + 1)) := by
    subst hstart
    exact h.forwards (hchain.leads (Nat.le_of_lt hlast)) (hchain.step n hlast)
  rw [hn]
  omega

end Advances

end Advances

/-! ## The meaning of a repetition -/

variable [SourceCursor σ τ φ]

/-- **What a repetition means**, for every parser `p` and every cursor `c`. It fails exactly with the
error with which `p` fails on `c`. It succeeds exactly with the values of a chain of successes of
`p` that starts at `c`, and ends where the chain ends. If moreover the successes of `p` never go
back, never leave the source and never let it run forever, the repetition comes back; each of its
values but the last one then stands for one token at least, and there is at most one value more
than there are tokens taken. -/
theorem oneOrMore_meaning (p : Parser σ α) (c : σ) :
    (∀ e, p.oneOrMore.Returns c (.failure e) ↔ p.Returns c (.failure e))
    ∧ (∀ vs rest, p.oneOrMore.Returns c (.success vs rest) ↔
        ∃ places, places 0 = c ∧ places vs.length = rest ∧ p.Chain places vs)
    ∧ (p.Advances c (sourceLength c) →
        (∃ o, p.oneOrMore.Returns c o)
        ∧ ∀ vs places, places 0 = c → p.Chain places vs →
            (∀ i, i + 1 < vs.length → position (places i) + 1 ≤ position (places (i + 1)))
            ∧ vs.length + position c ≤ position (places vs.length) + 1) := by
  refine ⟨fun e => oneOrMore_failure, fun vs rest => oneOrMore_success_iff_chain, fun h => ?_⟩
  refine ⟨h.oneOrMore_returns, fun vs places hstart hchain => ⟨fun i hi => ?_, ?_⟩⟩
  · exact h.chain_moves hstart hchain hi
  · exact h.length_le hstart hchain

/-- Where a parser leads that only reads on is reached by reading. -/
theorem Consumes.reaches_of_leads {p : Parser σ α} (hp : Consumes p) {c c' : σ}
    (h : p.Leads c c') : Reaches c c' := by
  induction h with
  | refl => exact .refl c
  | tail _ hstep ih =>
      obtain ⟨v, hv⟩ := hstep
      exact ih.trans (hp _ _ _ hv)

/-- A parser that only reads on and always comes back advances from every cursor. -/
theorem Consumes.advances [LawfulCursor σ τ] [TokenSource φ τ] [LawfulSource σ τ φ]
    {p : Parser σ α} (hp : Consumes p) (hreturns : ∀ c, ∃ o, p.Returns c o) (c : σ) :
    p.Advances c (sourceLength c) where
  returns _ := hreturns _
  forwards _ h := (hp _ _ _ h).position_le
  within {c' rest v} hleads h := by
    have hreaches : Reaches c rest := (hp.reaches_of_leads hleads).trans (hp _ _ _ h)
    exact hreaches.position_le_sourceLength

/-- Two characters are taken, and a third value is added by a round that does not move. -/
theorem oneOrMore_meaning_letters :
    let p : Parser TextCursor Char := (token 'a').optional '-'
    p.Advances (TextCursor.start "aab") 3
    ∧ ∃ places, places 0 = TextCursor.start "aab"
      ∧ p.Chain places ['a', 'a', '-']
      ∧ position (places 0) + 1 ≤ position (places 1)
      ∧ position (places 1) + 1 ≤ position (places 2)
      ∧ 3 ≤ position (places 3) + 1 := by
  intro p
  have hreturns : ∀ c, ∃ o, p.Returns c o := fun c => by
    obtain ⟨o, ho⟩ : ∃ o, (token 'a' : Parser TextCursor Char).Returns c o := ⟨_, 0, rfl⟩
    cases o with
    | success v rest => exact ⟨_, optional_success.mpr (Or.inl ho)⟩
    | failure e => exact ⟨_, optional_success.mpr (Or.inr ⟨e, ho, rfl, rfl⟩)⟩
  have hadvances : p.Advances (TextCursor.start "aab") 3 :=
    ((consumes_satisfy _ _).optional '-').advances hreturns _
  obtain ⟨-, hsuccess, hbounds⟩ := oneOrMore_meaning p (TextCursor.start "aab")
  have hrun : p.oneOrMore.Returns (TextCursor.start "aab")
      (.success ['a', 'a', '-'] (advance 2 (TextCursor.start "aab"))) := ⟨4, rfl⟩
  obtain ⟨places, hstart, -, hchain⟩ := (hsuccess _ _).mp hrun
  obtain ⟨hmoves, hlength⟩ := (hbounds hadvances).2 _ _ hstart hchain
  exact ⟨hadvances, places, hstart, hchain, hmoves 0 (by decide), hmoves 1 (by decide), hlength⟩

end ParserKit.Parser

import ParserKit.Proofs.Consumption

set_option autoImplicit false

/-! # Budgets that are enough

`Halts n p c` says that the budget `n` brings the parser `p` from the cursor `c` to an outcome. Each
combinator halts if its parts do: the first part on the same cursor, the others on the cursors
behind the successes of the parts before them.

The two loops are where a budget is spent on something else than recursion. They need a round more
than there are tokens left: a round that does not move is the last one, so all rounds but one
read something.
-/

namespace ParserKit

open Cursor LawfulCursor

namespace Run

variable {σ α β : Type}

theorem andThen_halts {x : Run σ α} {f : α → σ → Run σ β} (hx : ∃ o, x = .ok o)
    (hf : ∀ v rest, x = .ok (.success v rest) → ∃ o, f v rest = .ok o) :
    ∃ o, x.andThen f = .ok o := by
  obtain ⟨o, rfl⟩ := hx
  cases o with
  | success v rest => exact hf v rest rfl
  | failure e => exact ⟨.failure e, rfl⟩

theorem recover_halts {x : Run σ α} {f : ParseError → Run σ α} (hx : ∃ o, x = .ok o)
    (hf : ∀ e, x = .ok (.failure e) → ∃ o, f e = .ok o) : ∃ o, x.recover f = .ok o := by
  obtain ⟨o, rfl⟩ := hx
  cases o with
  | success v rest => exact ⟨.success v rest, rfl⟩
  | failure e => exact hf e rfl

end Run

namespace Parser

variable {σ τ α β γ : Type}

/-! ## The loops -/

section Loops

variable [Cursor σ τ] [LawfulCursor σ τ]

/-- The loop of a repetition comes back if its step comes back wherever the loop can run it. The
rounds have to be more than the tokens between the start of the last round and the end. -/
theorem repeatFrom_halts {step : σ → Run σ α}
    (hreads : ∀ c v rest, step c = .ok (.success v rest) → Reaches c rest) {rounds previous : Nat}
    {c : σ} (hprevious : previous ≤ position c)
    (hrounds : position c + (upcoming c).length < previous + rounds)
    (hstep : ∀ c', Reaches c c' → ∃ o, step c' = .ok o) (collected : List α) :
    ∃ o, repeatFrom step rounds previous c collected = .ok o := by
  induction rounds generalizing previous c collected with
  | zero => omega
  | succ rounds ih =>
      unfold repeatFrom
      by_cases hpos : position c = previous
      · rw [if_pos hpos]
        exact ⟨_, rfl⟩
      · rw [if_neg hpos]
        obtain ⟨o, ho⟩ := hstep c (.refl c)
        rw [ho]
        cases o with
        | failure e => exact ⟨_, rfl⟩
        | success v rest =>
            -- This round started behind the one before it, so one round fewer is still enough.
            have hrest : Reaches c rest := hreads c v rest ho
            have hsum := hrest.position_add_length
            refine ih hrest.position_le (by omega) ?_ _
            exact fun c' hc' => hstep c' (hrest.trans hc')

/-- The loop of a separated list comes back if its two parts do and there are more rounds than
tokens left. -/
theorem repeatSeparated_halts {separator : σ → Run σ β} {item : σ → Run σ α}
    (hseparator : ∀ c v rest, separator c = .ok (.success v rest) → Reaches c rest)
    (hitem : ∀ c v rest, item c = .ok (.success v rest) → Reaches c rest) {rounds : Nat} {c : σ}
    (hrounds : (upcoming c).length < rounds)
    (hs : ∀ c', Reaches c c' → ∃ o, separator c' = .ok o)
    (hi : ∀ c', Reaches c c' → ∃ o, item c' = .ok o) (collected : List α) :
    ∃ o, repeatSeparated separator item rounds c collected = .ok o := by
  induction rounds generalizing c collected with
  | zero => omega
  | succ rounds ih =>
      unfold repeatSeparated
      obtain ⟨o, ho⟩ := hs c (.refl c)
      rw [ho]
      cases o with
      | failure e => exact ⟨_, rfl⟩
      | success b mid =>
          have hmid : Reaches c mid := hseparator c b mid ho
          obtain ⟨o', ho'⟩ := hi mid hmid
          simp only [ho']
          cases o' with
          | failure e => exact ⟨_, rfl⟩
          | success v rest =>
              have hrest : Reaches c rest := hmid.trans (hitem mid v rest ho')
              by_cases hpos : position rest = position c
              · simp only [hpos, if_true]
                exact ⟨_, rfl⟩
              · -- Something was read in this round, so there are fewer tokens left for the others.
                simp only [hpos, if_false]
                have hsum := hrest.position_add_length
                have hle := hrest.position_le
                refine ih (by omega) ?_ ?_ _
                · exact fun c' hc' => hs c' (hrest.trans hc')
                · exact fun c' hc' => hi c' (hrest.trans hc')

end Loops

/-! ## The combinators -/

/-- The budget `n` is enough for `p` on `c`. -/
def Halts (n : Nat) (p : Parser σ α) (c : σ) : Prop := ∃ o, p.run n c = .ok o

theorem halts_ofFunction (n : Nat) (f : σ → Outcome σ α) (c : σ) : Halts n (ofFunction f) c :=
  ⟨f c, rfl⟩

namespace Halts

variable {n : Nat} {c : σ}

theorem map {p : Parser σ α} (hp : Halts n p c) (f : α → β) : Halts n (p.map f) c :=
  Run.andThen_halts hp fun _ _ _ => ⟨_, rfl⟩

/-- A computed value is had if no computation that `p` asks for is without a value. -/
theorem evaluate {p : Parser σ (Except Fault α)} (hp : Halts n p c)
    (hvalue : ∀ v rest, p.Returns c (.success v rest) → ∃ w, v = .ok w) :
    Halts n p.evaluate c := by
  refine Run.andThen_halts hp fun v rest hv => ?_
  obtain ⟨w, rfl⟩ := hvalue v rest ⟨n, hv⟩
  exact ⟨_, rfl⟩

theorem apply {f : Parser σ (α → β)} {a : Parser σ α} (hf : Halts n f c)
    (ha : ∀ g mid, f.Returns c (.success g mid) → Halts n a mid) : Halts n (f.apply a) c := by
  refine Run.andThen_halts hf fun g mid hg => ?_
  exact Run.andThen_halts (ha g mid ⟨n, hg⟩) fun _ _ _ => ⟨_, rfl⟩

theorem both {p : Parser σ α} {q : Parser σ β} (hp : Halts n p c)
    (hq : ∀ a mid, p.Returns c (.success a mid) → Halts n q mid) : Halts n (p.both q) c := by
  refine Run.andThen_halts hp fun a mid ha => ?_
  exact Run.andThen_halts (hq a mid ⟨n, ha⟩) fun _ _ _ => ⟨_, rfl⟩

theorem left {p : Parser σ α} {q : Parser σ β} (hp : Halts n p c)
    (hq : ∀ a mid, p.Returns c (.success a mid) → Halts n q mid) : Halts n (p.left q) c := by
  refine Run.andThen_halts hp fun a mid ha => ?_
  exact Run.andThen_halts (hq a mid ⟨n, ha⟩) fun _ _ _ => ⟨_, rfl⟩

theorem right {p : Parser σ α} {q : Parser σ β} (hp : Halts n p c)
    (hq : ∀ a mid, p.Returns c (.success a mid) → Halts n q mid) : Halts n (p.right q) c :=
  Run.andThen_halts hp fun a mid ha => hq a mid ⟨n, ha⟩

theorem between {opening : Parser σ α} {body : Parser σ β} {closing : Parser σ γ}
    (ho : Halts n opening c)
    (hb : ∀ a mid, opening.Returns c (.success a mid) → Halts n body mid)
    (hc : ∀ a mid b mid', opening.Returns c (.success a mid) →
      body.Returns mid (.success b mid') → Halts n closing mid') :
    Halts n (Parser.between opening body closing) c := by
  refine Run.andThen_halts ho fun a mid ha => ?_
  refine Run.andThen_halts (hb a mid ⟨n, ha⟩) fun b mid' hb' => ?_
  exact Run.andThen_halts (hc a mid b mid' ⟨n, ha⟩ ⟨n, hb'⟩) fun _ _ _ => ⟨_, rfl⟩

theorem orElse {p q : Parser σ α} (hp : Halts n p c) (hq : Halts n q c) : Halts n (p.orElse q) c :=
  Run.recover_halts hp fun _ _ => hq

theorem optional {p : Parser σ α} (hp : Halts n p c) (fallback : α) :
    Halts n (p.optional fallback) c := hp.orElse (halts_ofFunction n _ c)

variable [Cursor σ τ]

theorem filter {p : Parser σ α} (hp : Halts n p c) (accept : α → Bool) (text : String) :
    Halts n (p.filter accept text) c := by
  refine Run.andThen_halts hp fun v rest _ => ?_
  by_cases hv : accept v = true
  · exact ⟨.success v rest, if_pos hv⟩
  · exact ⟨.failure (.message text (position c)), if_neg hv⟩

theorem label [Describe τ] {p : Parser σ α} (hp : Halts n p c) (expected : String) :
    Halts n (p.label expected) c := by
  refine Run.recover_halts hp fun _ _ => ?_
  cases next? c with
  | none => exact ⟨_, rfl⟩
  | some read => exact ⟨_, rfl⟩

theorem spanned {p : Parser σ α} (hp : Halts n p c) : Halts n p.spanned c :=
  Run.andThen_halts hp fun _ _ _ => ⟨_, rfl⟩

theorem zeroOrMore {p : Parser σ α} (hp : Halts n p.oneOrMore c) : Halts n p.zeroOrMore c :=
  hp.orElse (halts_ofFunction n _ c)

variable [LawfulCursor σ τ]

theorem oneOrMore {p : Parser σ α} (hreads : Consumes p)
    (hp : ∀ c', Reaches c c' → Halts n p c') (hn : (upcoming c).length < n) :
    Halts n p.oneOrMore c := by
  refine Run.andThen_halts (hp c (.refl c)) fun v rest hv => ?_
  have hrest : Reaches c rest := hreads c v rest ⟨n, hv⟩
  have hsum := hrest.position_add_length
  refine repeatFrom_halts (fun c v rest h => hreads c v rest ⟨n, h⟩) hrest.position_le
    (by omega) ?_ _
  exact fun c' hc' => hp c' (hrest.trans hc')

theorem separatedList {item : Parser σ α} {separator : Parser σ β} (hitem : Consumes item)
    (hseparator : Consumes separator)
    (hi : ∀ c', Reaches c c' → Halts n item c')
    (hs : ∀ v mid, item.Returns c (.success v mid) →
      ∀ c', Reaches mid c' → Halts n separator c') (hn : (upcoming c).length < n) :
    Halts n (item.separatedList separator) c := by
  refine Run.andThen_halts (hi c (.refl c)) fun v mid hv => ?_
  have hmid : Reaches c mid := hitem c v mid ⟨n, hv⟩
  have hsum := hmid.position_add_length
  have hle := hmid.position_le
  refine repeatSeparated_halts (fun c v rest h => hseparator c v rest ⟨n, h⟩)
    (fun c v rest h => hitem c v rest ⟨n, h⟩) (by omega) ?_ ?_ _
  · exact hs v mid ⟨n, hv⟩
  · exact fun c' hc' => hi c' (hmid.trans hc')

end Halts

end Parser

end ParserKit

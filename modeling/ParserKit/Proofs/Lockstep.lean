import ParserKit.Proofs.Occurrence
import ParserKit.Proofs.Reading

set_option autoImplicit false

/-! # Two runs in lockstep

Two cursors are *aligned* if they have the same tokens to come and their positions differ by a fixed
shift. They may belong to different sources and be of different kinds. Reading keeps them aligned,
and a parser learns nothing else of a cursor than what reading it gives and where it is.

So a parser that is run on both goes the same way: it makes the same choices, goes round its
repetitions equally often and, within the same budget, is interrupted in the same place or not at
all (`Run.InStep`). Values come out equal, cursors aligned, and errors with their positions shifted.
Each combinator keeps two parsers in step (`Parser.InStep`), and so do recursive rules
(`fix_inStep`). What is special about a grammar is in two of its nodes only: functions on cursors of
the caller's own, and spans, which hold positions and so are the same only if the shift is zero
(`Grammar.parser_inStep`).
-/

namespace ParserKit

open Cursor LawfulCursor

/-- The same error at a position further by `shift`. -/
def ParseError.shift (shift : Nat) : ParseError → ParseError
  | endOfInput expected n => endOfInput expected (shift + n)
  | unexpected expected found n => unexpected expected found (shift + n)
  | message text n => message text (shift + n)

@[simp] theorem ParseError.shift_zero (e : ParseError) : e.shift 0 = e := by
  cases e <;> simp [shift]

/-! ## Aligned cursors -/

section Aligned

variable {σ σ' τ : Type} [Cursor σ τ] [LawfulCursor σ τ] [Cursor σ' τ] [LawfulCursor σ' τ]

/-- The same tokens are to come at `c` and at `d`, and `c` is further on by `shift`. -/
structure Aligned (shift : Nat) (c : σ) (d : σ') : Prop where
  upcoming_eq : upcoming c = upcoming d
  position_eq : position c = shift + position d

namespace Aligned

variable {shift : Nat} {c : σ} {d : σ'}

/-- At aligned cursors, either nothing can be read or the same token, and the cursors behind it are
aligned again. -/
theorem next (h : Aligned shift c d) :
    (next? c = none ∧ next? d = none)
      ∨ ∃ t c' d', next? c = some (t, c') ∧ next? d = some (t, d') ∧ Aligned shift c' d' := by
  cases hc : next? c with
  | none =>
      have hnil : upcoming d = [] := by
        rw [← h.upcoming_eq]
        exact (next?_eq_none_iff c).mp hc
      exact Or.inl ⟨rfl, (next?_eq_none_iff d).mpr hnil⟩
  | some read =>
      obtain ⟨t, c'⟩ := read
      have hcons : upcoming d = t :: upcoming c' := by
        rw [← h.upcoming_eq]
        exact upcoming_eq_cons hc
      cases hd : next? d with
      | none =>
          rw [(next?_eq_none_iff d).mp hd] at hcons
          cases hcons
      | some read' =>
          obtain ⟨u, d'⟩ := read'
          rw [upcoming_eq_cons hd, List.cons.injEq] at hcons
          obtain ⟨rfl, htail⟩ := hcons
          refine Or.inr ⟨u, c', d', rfl, rfl, htail.symm, ?_⟩
          rw [position_next hc, position_next hd, h.position_eq]
          omega

/-- The tests by which repetitions stop have the same answer at aligned cursors. -/
theorem position_eq_iff (h : Aligned shift c d) (n : Nat) :
    position c = shift + n ↔ position d = n := by
  have := h.position_eq
  omega

theorem advance (h : Aligned shift c d) (n : Nat) :
    Aligned shift (Cursor.advance n c) (Cursor.advance n d) := by
  induction n generalizing c d with
  | zero => exact h
  | succ n ih =>
      rcases h.next with ⟨hc, hd⟩ | ⟨t, c', d', hc, hd, h'⟩
      · simp only [Cursor.advance, hc, hd]
        exact h
      · simp only [Cursor.advance, hc, hd]
        exact ih h'

end Aligned

end Aligned

/-- Aligned cursors of one kind have the same left of their sources. -/
theorem Aligned.remaining_eq {σ τ φ : Type} [SourceCursor σ τ φ] [LawfulCursor σ τ]
    [TokenSource φ τ] [LawfulTokenSource φ τ] [LawfulSource σ τ φ] {shift : Nat} {c d : σ}
    (h : Aligned shift c d) : SourceCursor.remaining c = SourceCursor.remaining d := by
  apply LawfulTokenSource.eq_of_tokens_eq
  rw [← LawfulSource.upcoming_eq_tokens, ← LawfulSource.upcoming_eq_tokens, h.upcoming_eq]

/-! ## Runs in step -/

/-- The outcomes are of the same kind. If they are successes, they have the same value and `Same`
relates their cursors; if they are failures, `SameError` relates their errors. -/
inductive Outcome.Rel {σ σ' α : Type} (Same : σ → σ' → Prop)
    (SameError : ParseError → ParseError → Prop) : Outcome σ α → Outcome σ' α → Prop where
  | success {v : α} {rest : σ} {rest' : σ'} (h : Same rest rest') :
      Rel Same SameError (.success v rest) (.success v rest')
  | failure {e e' : ParseError} (h : SameError e e') :
      Rel Same SameError (.failure e) (.failure e')

theorem Outcome.Rel.mono {σ σ' α : Type} {Same Same' : σ → σ' → Prop}
    {SameError SameError' : ParseError → ParseError → Prop} {o : Outcome σ α} {o' : Outcome σ' α}
    (h : Outcome.Rel Same SameError o o') (hsame : ∀ c d, Same c d → Same' c d)
    (herror : ∀ e e', SameError e e' → SameError' e e') : Outcome.Rel Same' SameError' o o' := by
  cases h with
  | success hrest => exact .success (hsame _ _ hrest)
  | failure he => exact .failure (herror _ _ he)

section InStep

variable {σ σ' τ α β γ : Type} [Cursor σ τ] [LawfulCursor σ τ] [Cursor σ' τ] [LawfulCursor σ' τ]

/-- The outcomes have the same value and aligned cursors, or errors that differ by the shift. -/
abbrev Outcome.Aligned (shift : Nat) : Outcome σ α → Outcome σ' α → Prop :=
  Outcome.Rel (ParserKit.Aligned shift) fun e e' => e = e'.shift shift

/-- Two runs from aligned cursors have gone the same way. -/
inductive Run.InStep (shift : Nat) : Run σ α → Run σ' α → Prop where
  | success (v : α) {rest : σ} {rest' : σ'} (h : Aligned shift rest rest') :
      InStep shift (Run.success v rest) (Run.success v rest')
  | failure (e : ParseError) : InStep shift (Run.failure (e.shift shift)) (Run.failure e)
  | interrupted (cause : Interruption) : InStep shift (.error cause) (.error cause)

namespace Run.InStep

variable {shift : Nat}

theorem andThen {x : Run σ α} {y : Run σ' α} {f : α → σ → Run σ β} {g : α → σ' → Run σ' β}
    (h : Run.InStep shift x y)
    (hfg : ∀ v c d, Aligned shift c d → Run.InStep shift (f v c) (g v d)) :
    Run.InStep shift (x.andThen f) (y.andThen g) := by
  cases h with
  | success v hrest => exact hfg v _ _ hrest
  | failure e => exact .failure e
  | interrupted cause => exact .interrupted cause

theorem recover {x : Run σ α} {y : Run σ' α} {f : ParseError → Run σ α} {g : ParseError → Run σ' α}
    (h : Run.InStep shift x y) (hfg : ∀ e, Run.InStep shift (f (e.shift shift)) (g e)) :
    Run.InStep shift (x.recover f) (y.recover g) := by
  cases h with
  | success v hrest => exact .success v hrest
  | failure e => exact hfg e
  | interrupted cause => exact .interrupted cause

/-- If the first run comes back, so does the second. -/
theorem ok_left {x : Run σ α} {y : Run σ' α} {o : Outcome σ α} (h : Run.InStep shift x y)
    (hx : x = .ok o) :
    ∃ o', y = .ok o' ∧ Outcome.Aligned shift o o' := by
  cases h with
  | success v hrest =>
      cases hx
      exact ⟨_, rfl, .success hrest⟩
  | failure e =>
      cases hx
      exact ⟨_, rfl, .failure rfl⟩
  | interrupted cause => cases hx

/-- If the second run comes back, so does the first. -/
theorem ok_right {x : Run σ α} {y : Run σ' α} {o' : Outcome σ' α} (h : Run.InStep shift x y)
    (hy : y = .ok o') :
    ∃ o, x = .ok o ∧ Outcome.Aligned shift o o' := by
  cases h with
  | success v hrest =>
      cases hy
      exact ⟨_, rfl, .success hrest⟩
  | failure e =>
      cases hy
      exact ⟨_, rfl, .failure rfl⟩
  | interrupted cause => cases hy

end Run.InStep

/-- On aligned cursors and within equal budgets, `p` and `q` go the same way. -/
def Parser.InStep (shift : Nat) (p : Parser σ α) (q : Parser σ' α) : Prop :=
  ∀ n c d, Aligned shift c d → Run.InStep shift (p.run n c) (q.run n d)

namespace Parser

variable {shift : Nat}

/-! ## Primitive parsers -/

theorem inStep_satisfy [Describe τ] (expected : String) (accept : τ → Bool) :
    InStep shift (satisfy expected accept : Parser σ τ)
      (satisfy expected accept : Parser σ' τ) := by
  intro n c d h
  simp only [satisfy, ofFunction]
  rcases h.next with ⟨hc, hd⟩ | ⟨t, c', d', hc, hd, h'⟩
  · rw [hc, hd, h.position_eq]
    exact .failure (.endOfInput expected (position d))
  · rw [hc, hd, h.position_eq]
    by_cases ha : accept t = true
    · simp only [ha, if_true]
      exact .success t h'
    · simp only [ha]
      exact .failure (.unexpected expected (describe t) (position d))

theorem inStep_endOfInput [Describe τ] :
    InStep shift (endOfInput : Parser σ Unit) (endOfInput : Parser σ' Unit) := by
  intro n c d h
  simp only [endOfInput, ofFunction]
  rcases h.next with ⟨hc, hd⟩ | ⟨t, c', d', hc, hd, _⟩
  · rw [hc, hd]
    exact .success () h
  · rw [hc, hd, h.position_eq]
    exact .failure (.unexpected "end of input" (describe t) (position d))

theorem inStep_pure (v : α) :
    InStep shift (Parser.pure v : Parser σ α) (Parser.pure v : Parser σ' α) :=
  fun _ _ _ h => .success v h

theorem inStep_emptyList :
    InStep shift (emptyList : Parser σ (List α)) (emptyList : Parser σ' (List α)) :=
  fun _ _ _ h => .success [] h

theorem inStep_abort (cause : Fault) :
    InStep shift (abort cause : Parser σ α) (abort cause : Parser σ' α) :=
  fun _ _ _ _ => .interrupted (.fault cause)

theorem inStep_stuck : InStep shift (stuck : Parser σ α) (stuck : Parser σ' α) :=
  fun _ _ _ _ => .interrupted .exhausted

/-- Functions that do alike at aligned cursors are in step as parsers. -/
theorem inStep_ofFunction {f : σ → Outcome σ α} {g : σ' → Outcome σ' α}
    (h : ∀ c d, Aligned shift c d → Outcome.Aligned shift (f c) (g d)) :
    InStep shift (ofFunction f) (ofFunction g) := by
  intro n c d hcd
  have hout := h c d hcd
  simp only [ofFunction]
  generalize f c = o at hout
  generalize g d = o' at hout
  cases hout with
  | success hrest => exact .success _ hrest
  | failure he =>
      subst he
      exact .failure _

/-! ## The loops

The two loops take the same number of rounds: they stop by tests of positions, which have the same
answer at aligned cursors, and by failures, which the two sides have together. -/

theorem repeatFrom_inStep {step : σ → Run σ α} {step' : σ' → Run σ' α}
    (hstep : ∀ c d, Aligned shift c d → Run.InStep shift (step c) (step' d))
    (rounds previous : Nat) {c : σ} {d : σ'} (h : Aligned shift c d) (collected : List α) :
    Run.InStep shift (repeatFrom step rounds (shift + previous) c collected)
      (repeatFrom step' rounds previous d collected) := by
  induction rounds generalizing previous c d collected with
  | zero => exact .interrupted .exhausted
  | succ rounds ih =>
      simp only [repeatFrom, h.position_eq_iff previous]
      by_cases hpos : position d = previous
      · rw [if_pos hpos, if_pos hpos]
        exact .success _ h
      · rw [if_neg hpos, if_neg hpos]
        have hround := hstep c d h
        generalize step c = x at hround
        generalize step' d = y at hround
        cases hround with
        | success v hrest =>
            -- The position from which this round started is shifted, as the invariant asks.
            rw [h.position_eq]
            exact ih (position d) hrest (v :: collected)
        | failure e => exact .success _ h
        | interrupted cause => exact .interrupted cause

theorem repeatSeparated_inStep {separator : σ → Run σ β} {separator' : σ' → Run σ' β}
    {item : σ → Run σ α} {item' : σ' → Run σ' α}
    (hseparator : ∀ c d, Aligned shift c d → Run.InStep shift (separator c) (separator' d))
    (hitem : ∀ c d, Aligned shift c d → Run.InStep shift (item c) (item' d))
    (rounds : Nat) {c : σ} {d : σ'} (h : Aligned shift c d) (collected : List α) :
    Run.InStep shift (repeatSeparated separator item rounds c collected)
      (repeatSeparated separator' item' rounds d collected) := by
  induction rounds generalizing c d collected with
  | zero => exact .interrupted .exhausted
  | succ rounds ih =>
      simp only [repeatSeparated]
      have hfirst := hseparator c d h
      generalize separator c = x at hfirst
      generalize separator' d = y at hfirst
      cases hfirst with
      | failure e => exact .success _ h
      | interrupted cause => exact .interrupted cause
      | @success _ mid mid' hmid =>
          have hsecond := hitem mid mid' hmid
          simp only [Run.success]
          generalize item mid = x at hsecond
          generalize item' mid' = y at hsecond
          cases hsecond with
          | failure e => exact .success _ h
          | interrupted cause => exact .interrupted cause
          | success v hrest =>
              have hstop := hrest.position_eq_iff (position d)
              rw [← h.position_eq] at hstop
              simp only [Run.success, hstop]
              split
              · exact .success _ hrest
              · exact ih hrest (v :: collected)

namespace InStep

/-! ## Sequences -/

theorem map {p : Parser σ α} {q : Parser σ' α} (hp : InStep shift p q) (f : α → β) :
    InStep shift (p.map f) (q.map f) := fun n c d h =>
  (hp n c d h).andThen fun v _ _ hrest => .success (f v) hrest

theorem evaluate {p : Parser σ (Except Fault α)} {q : Parser σ' (Except Fault α)}
    (hp : InStep shift p q) : InStep shift p.evaluate q.evaluate := by
  intro n c d h
  refine (hp n c d h).andThen fun v rest rest' hrest => ?_
  cases v with
  | ok a => exact .success a hrest
  | error cause => exact .interrupted (.fault cause)

theorem apply {f : Parser σ (α → β)} {f' : Parser σ' (α → β)} {a : Parser σ α} {a' : Parser σ' α}
    (hf : InStep shift f f') (ha : InStep shift a a') :
    InStep shift (f.apply a) (f'.apply a') := fun n c d h =>
  (hf n c d h).andThen fun g mid mid' hmid =>
    (ha n mid mid' hmid).andThen fun v _ _ hrest => .success (g v) hrest

theorem both {p : Parser σ α} {p' : Parser σ' α} {q : Parser σ β} {q' : Parser σ' β}
    (hp : InStep shift p p') (hq : InStep shift q q') :
    InStep shift (p.both q) (p'.both q') := fun n c d h =>
  (hp n c d h).andThen fun a mid mid' hmid =>
    (hq n mid mid' hmid).andThen fun b _ _ hrest => .success (a, b) hrest

theorem left {p : Parser σ α} {p' : Parser σ' α} {q : Parser σ β} {q' : Parser σ' β}
    (hp : InStep shift p p') (hq : InStep shift q q') :
    InStep shift (p.left q) (p'.left q') := fun n c d h =>
  (hp n c d h).andThen fun a mid mid' hmid =>
    (hq n mid mid' hmid).andThen fun _ _ _ hrest => .success a hrest

theorem right {p : Parser σ α} {p' : Parser σ' α} {q : Parser σ β} {q' : Parser σ' β}
    (hp : InStep shift p p') (hq : InStep shift q q') :
    InStep shift (p.right q) (p'.right q') := fun n c d h =>
  (hp n c d h).andThen fun _ mid mid' hmid => hq n mid mid' hmid

theorem between {o : Parser σ α} {o' : Parser σ' α} {b : Parser σ β} {b' : Parser σ' β}
    {e : Parser σ γ} {e' : Parser σ' γ} (ho : InStep shift o o') (hb : InStep shift b b')
    (he : InStep shift e e') :
    InStep shift (Parser.between o b e) (Parser.between o' b' e') := fun n c d h =>
  (ho n c d h).andThen fun _ mid mid' hmid =>
    (hb n mid mid' hmid).andThen fun v next next' hnext =>
      (he n next next' hnext).andThen fun _ _ _ hrest => .success v hrest

/-! ## Choice and refinements -/

/-- The second alternative is run on the cursors of the first, which are still aligned. -/
theorem orElse {p p' : Parser σ α} {q q' : Parser σ' α} (hp : InStep shift p q)
    (hp' : InStep shift p' q') : InStep shift (p.orElse p') (q.orElse q') := fun n c d h =>
  (hp n c d h).recover fun _ => hp' n c d h

theorem optional {p : Parser σ α} {q : Parser σ' α} (hp : InStep shift p q) (fallback : α) :
    InStep shift (p.optional fallback) (q.optional fallback) := hp.orElse (inStep_pure fallback)

theorem filter {p : Parser σ α} {q : Parser σ' α} (hp : InStep shift p q) (accept : α → Bool)
    (text : String) : InStep shift (p.filter accept text) (q.filter accept text) := by
  intro n c d h
  refine (hp n c d h).andThen fun v rest rest' hrest => ?_
  rw [h.position_eq]
  by_cases ha : accept v = true
  · rw [if_pos ha, if_pos ha]
    exact .success v hrest
  · rw [if_neg ha, if_neg ha]
    exact .failure (.message text (position d))

theorem label [Describe τ] {p : Parser σ α} {q : Parser σ' α} (hp : InStep shift p q)
    (expected : String) : InStep shift (p.label expected) (q.label expected) := by
  intro n c d h
  refine (hp n c d h).recover fun _ => ?_
  rcases h.next with ⟨hc, hd⟩ | ⟨t, c', d', hc, hd, _⟩
  · rw [hc, hd, h.position_eq]
    exact .failure (.endOfInput expected (position d))
  · rw [hc, hd, h.position_eq]
    exact .failure (.unexpected expected (describe t) (position d))

/-- A span holds positions, so it is the same on both sides only if there is no shift. -/
theorem spanned {p : Parser σ α} {q : Parser σ' α} (hp : InStep 0 p q) :
    InStep 0 p.spanned q.spanned := by
  intro n c d h
  refine (hp n c d h).andThen fun v rest rest' hrest => ?_
  rw [h.position_eq, hrest.position_eq, Nat.zero_add, Nat.zero_add]
  exact .success _ hrest

/-! ## Repetition -/

theorem oneOrMore {p : Parser σ α} {q : Parser σ' α} (hp : InStep shift p q) :
    InStep shift p.oneOrMore q.oneOrMore := by
  intro n c d h
  refine (hp n c d h).andThen fun v rest rest' hrest => ?_
  rw [h.position_eq]
  exact repeatFrom_inStep (hp n) n (position d) hrest [v]

theorem zeroOrMore {p : Parser σ α} {q : Parser σ' α} (hp : InStep shift p q) :
    InStep shift p.zeroOrMore q.zeroOrMore := hp.oneOrMore.orElse inStep_emptyList

theorem separatedList {p : Parser σ α} {q : Parser σ' α} {s : Parser σ β} {s' : Parser σ' β}
    (hp : InStep shift p q) (hs : InStep shift s s') :
    InStep shift (p.separatedList s) (q.separatedList s') := fun n c d h =>
  (hp n c d h).andThen fun v _ _ hrest => repeatSeparated_inStep (hs n) (hp n) n hrest [v]

end InStep

/-! ## Recursion -/

/-- Two families that are defined recursively are in step where their definitions keep families in
step. -/
theorem fix_inStep {ι : Type} {body : (ι → Parser σ α) → ι → Parser σ α}
    {body' : (ι → Parser σ' α) → ι → Parser σ' α} (hlocal : Local body) (hlocal' : Local body')
    {P : ι → Prop}
    (step : ∀ (p : ι → Parser σ α) (q : ι → Parser σ' α), (∀ i, P i → InStep shift (p i) (q i)) →
      ∀ i, P i → InStep shift (body p i) (body' q i))
    {i : ι} (hi : P i) : InStep shift (fix body hlocal i) (fix body' hlocal' i) := by
  -- Both sides unfold their definition to the same depth, the budget.
  have hdepth : ∀ depth i, P i →
      InStep shift (unfolding body depth i) (unfolding body' depth i) := by
    intro depth
    induction depth with
    | zero => exact fun _ _ => inStep_stuck
    | succ depth ih => exact step _ _ ih
  intro n c d h
  exact hdepth n i hi n c d h

/-! ## What parsers in step return -/

/-- Run on `c`, the parser `p` comes back exactly if `q` does, run on `d`, and then `R` relates the
two outcomes. -/
def ReturnAlike {σ σ' : Type} (R : Outcome σ α → Outcome σ' α → Prop) (p : Parser σ α) (c : σ)
    (q : Parser σ' α) (d : σ') : Prop :=
  (∀ o, p.Returns c o → ∃ o', q.Returns d o' ∧ R o o')
    ∧ ∀ o', q.Returns d o' → ∃ o, p.Returns c o ∧ R o o'

theorem InStep.returnAlike {p : Parser σ α} {q : Parser σ' α} (hp : InStep shift p q) {c : σ}
    {d : σ'} (h : Aligned shift c d) :
    ReturnAlike (Outcome.Aligned shift) p c q d := by
  constructor
  · rintro o ⟨n, hn⟩
    obtain ⟨o', ho', hrel⟩ := (hp n c d h).ok_left hn
    exact ⟨o', ⟨n, ho'⟩, hrel⟩
  · rintro o' ⟨n, hn⟩
    obtain ⟨o, ho, hrel⟩ := (hp n c d h).ok_right hn
    exact ⟨o, ⟨n, ho⟩, hrel⟩

theorem ReturnAlike.mono {σ σ' : Type} {R S : Outcome σ α → Outcome σ' α → Prop}
    {p : Parser σ α} {c : σ} {q : Parser σ' α} {d : σ'} (h : ReturnAlike R p c q d)
    (hRS : ∀ o o', R o o' → S o o') : ReturnAlike S p c q d := by
  refine ⟨fun o ho => ?_, fun o' ho' => ?_⟩
  · obtain ⟨o', ho', hrel⟩ := h.1 o ho
    exact ⟨o', ho', hRS o o' hrel⟩
  · obtain ⟨o, ho, hrel⟩ := h.2 o' ho'
    exact ⟨o, ho, hRS o o' hrel⟩

end Parser

end InStep

/-! ## Grammars in step -/

namespace Grammar

variable {σ σ' τ κ : Type} [Cursor σ τ] [LawfulCursor σ τ] [Cursor σ' τ] [LawfulCursor σ' τ]
  [Describe τ] [BEq τ] {shift : Nat} {interpret : κ → σ → Outcome σ (Value τ)}
  {interpret' : κ → σ' → Outcome σ' (Value τ)} {rules : Rules τ κ}

/-- Spans need the shift to be zero, and functions on cursors have to be in step by themselves. -/
def NodeInStep (shift : Nat) (interpret : κ → σ → Outcome σ (Value τ))
    (interpret' : κ → σ' → Outcome σ' (Value τ)) : Grammar τ κ → Prop
  | spanned _ => shift = 0
  | custom k =>
    Parser.InStep shift (Parser.ofFunction (interpret k)) (Parser.ofFunction (interpret' k))
  | _ => True

/-- All that the rule called `name` is made of, if there is one, can be kept in step. -/
def RuleInStep (shift : Nat) (interpret : κ → σ → Outcome σ (Value τ))
    (interpret' : κ → σ' → Outcome σ' (Value τ)) (rules : Rules τ κ) (name : String) : Prop :=
  ∀ body, rules.lookup name = some body →
    Everywhere rules (NodeInStep shift interpret interpret') body

theorem denote_inStep {env : String → Parser σ (Value τ)} {env' : String → Parser σ' (Value τ)}
    (henv : ∀ name, RuleInStep shift interpret interpret' rules name →
      Parser.InStep shift (env name) (env' name))
    (g : Grammar τ κ) (hg : Everywhere rules (NodeInStep shift interpret interpret') g) :
    Parser.InStep shift (g.denote interpret env) (g.denote interpret' env') := by
  induction g with
  | satisfy expected accept => exact (Parser.inStep_satisfy expected accept).map _
  | token t => exact (Parser.inStep_satisfy _ _).map _
  | anyToken => exact (Parser.inStep_satisfy _ _).map _
  | endOfInput => exact Parser.inStep_endOfInput.map _
  | emptyList => exact Parser.inStep_emptyList.map _
  | pure v => exact Parser.inStep_pure v
  | map g f ih => exact ((ih hg.part).map f).evaluate
  | apply call f a ihf iha =>
      have hf := ihf hg.part
      have ha := iha hg.part
      exact ((hf.map call).apply ha).evaluate
  | both a b iha ihb => exact ((iha hg.part).both (ihb hg.part)).map _
  | left a b iha ihb => exact (iha hg.part).left (ihb hg.part)
  | right a b iha ihb => exact (iha hg.part).right (ihb hg.part)
  | between o b e iho ihb ihe =>
      have ho := iho hg.part
      have hb := ihb hg.part
      have he := ihe hg.part
      exact ho.between hb he
  | orElse a b iha ihb => exact (iha hg.part).orElse (ihb hg.part)
  | optional g fallback ih => exact (ih hg.part).optional fallback
  | oneOrMore g ih => exact (ih hg.part).oneOrMore.map _
  | zeroOrMore g ih => exact (ih hg.part).zeroOrMore.map _
  | separatedList item separator ihi ihs =>
      have hi := ihi hg.part
      have hs := ihs hg.part
      exact (hi.separatedList hs).map _
  | filter g accept text ih => exact (ih hg.part).filter accept text
  | label g expected ih => exact (ih hg.part).label expected
  | spanned g ih =>
      have hshift : shift = 0 := hg.here
      subst hshift
      exact (ih hg.part).spanned.map _
  | rule name => exact henv name fun body hbody => hg.rule hbody
  | custom k => exact hg.here

/-- A rule keeps its references in step; one that is not defined stops both sides. -/
theorem denoteRule_inStep {env : String → Parser σ (Value τ)}
    {env' : String → Parser σ' (Value τ)}
    (henv : ∀ name, RuleInStep shift interpret interpret' rules name →
      Parser.InStep shift (env name) (env' name))
    {name : String} (hname : RuleInStep shift interpret interpret' rules name) :
    Parser.InStep shift (denoteRule interpret rules env name)
      (denoteRule interpret' rules env' name) := by
  unfold denoteRule
  cases hbody : rules.lookup name with
  | none => exact Parser.inStep_abort _
  | some body => exact denote_inStep henv body (hname body hbody)

/-- **A grammar goes the same way on aligned cursors.** -/
theorem parser_inStep {g : Grammar τ κ}
    (hg : Everywhere rules (NodeInStep shift interpret interpret') g) :
    Parser.InStep shift (g.parser interpret rules) (g.parser interpret' rules) := by
  refine denote_inStep (fun name hname => ?_) g hg
  exact Parser.fix_inStep (local_denoteRule interpret rules) (local_denoteRule interpret' rules)
    (fun _ _ henv _ hname => denoteRule_inStep henv hname) hname

end Grammar

end ParserKit

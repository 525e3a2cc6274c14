import ParserKit.Cursor.Text
import ParserKit.Proofs.Sequencing

set_option autoImplicit false

/-! # Ordered choice

A choice between several parsers is a tree of `orElse` nodes (`OrTree`). Which of its parsers
decides is said without that combinator: the first one that succeeds, if those before it fail
(`FirstSucceeds`), or the last one, if all of them fail (`LastFails`). All parsers are run on the
same cursor, so nothing that an earlier one has read shows in what is returned.

As with sequences, the comparison is by equations between parsers. Choice is associative
(`orElse_assoc`), so every tree is the choice `firstOf` that tries its parsers from the left. And
two sequences with the same first part are that part and a choice behind it (`both_orElse`): if the
part fails, both sequences fail with its error; otherwise it stops twice at the same cursor with the
same value. So a common first part can be taken out of a whole choice.
-/

namespace ParserKit

/-! ## Laws of recovery -/

namespace Run

variable {σ α β : Type}

theorem recover_recover (x : Run σ α) (f g : ParseError → Run σ α) :
    (x.recover f).recover g = x.recover fun e => (f e).recover g := by
  match x with
  | .ok (.success _ _) => rfl
  | .ok (.failure _) => rfl
  | .error _ => rfl

/-- If the same run is tried again with another continuation, then only because the first
continuation has failed, or because the run itself fails and fails again. -/
theorem andThen_recover_andThen (x : Run σ α) (f g : α → σ → Run σ β) :
    ((x.andThen f).recover fun _ => x.andThen g)
      = x.andThen fun v rest => (f v rest).recover fun _ => g v rest := by
  match x with
  | .ok (.success _ _) => rfl
  | .ok (.failure _) => rfl
  | .error _ => rfl

end Run

namespace Parser

variable {σ α β : Type}

theorem orElse_assoc (p q r : Parser σ α) :
    (p.orElse q).orElse r = p.orElse (q.orElse r) :=
  eq_of_run_eq fun _ _ => Run.recover_recover _ _ _

theorem bind_orElse (p : Parser σ α) (f g : α → Parser σ β) :
    (p.bind f).orElse (p.bind g) = p.bind fun v => (f v).orElse (g v) :=
  eq_of_run_eq fun _ _ => Run.andThen_recover_andThen _ _ _

/-- A function of the value of a choice is that function of the value of each alternative. -/
theorem map_orElse (p q : Parser σ α) (f : α → β) :
    (p.orElse q).map f = (p.map f).orElse (q.map f) := by
  refine eq_of_run_eq fun n c => ?_
  show ((p.run n c).recover fun _ => q.run n c).andThen _ = ((p.run n c).andThen _).recover _
  match p.run n c with
  | .ok (.success _ _) => rfl
  | .ok (.failure _) => rfl
  | .error _ => rfl

theorem both_eq_bind_map (p : Parser σ α) (q : Parser σ β) :
    p.both q = p.bind fun a => q.map fun b => (a, b) := rfl

/-- A common first part is taken out of two sequences. -/
theorem both_orElse (p : Parser σ α) (q r : Parser σ β) :
    (p.both q).orElse (p.both r) = p.both (q.orElse r) := by
  simp only [both_eq_bind_map]
  calc (p.bind fun a => q.map fun b => (a, b)).orElse (p.bind fun a => r.map fun b => (a, b))
      = p.bind fun a => (q.map fun b => (a, b)).orElse (r.map fun b => (a, b)) :=
        bind_orElse p _ _
    _ = p.bind fun a => (q.orElse r).map fun b => (a, b) := by simp only [map_orElse]

/-! ## The first parser that succeeds -/

/-- Each of the parsers fails on `c`. -/
def AllFail (qs : List (Parser σ α)) (c : σ) : Prop := ∀ q ∈ qs, ∃ e, q.Returns c (.failure e)

/-- On `c`, some of the parsers fail and the next one succeeds. -/
def FirstSucceeds (qs : List (Parser σ α)) (c : σ) (v : α) (rest : σ) : Prop :=
  ∃ (front : List (Parser σ α)) (q : Parser σ α) (back : List (Parser σ α)),
    qs = front ++ q :: back ∧ AllFail front c ∧ q.Returns c (.success v rest)

/-- On `c`, all of the parsers fail, and the last one with `e`. -/
def LastFails (qs : List (Parser σ α)) (c : σ) (e : ParseError) : Prop :=
  ∃ (front : List (Parser σ α)) (q : Parser σ α),
    qs = front ++ [q] ∧ AllFail front c ∧ q.Returns c (.failure e)

section First

variable {q r : Parser σ α} {qs : List (Parser σ α)} {c rest : σ} {v : α} {e : ParseError}

theorem allFail_cons :
    AllFail (q :: qs) c ↔ (∃ e, q.Returns c (.failure e)) ∧ AllFail qs c := List.forall_mem_cons

theorem firstSucceeds_nil : ¬ FirstSucceeds ([] : List (Parser σ α)) c v rest := by
  rintro ⟨front, q, back, hnil, -⟩
  simp at hnil

theorem firstSucceeds_cons :
    FirstSucceeds (q :: qs) c v rest ↔
      q.Returns c (.success v rest)
        ∨ ∃ e, q.Returns c (.failure e) ∧ FirstSucceeds qs c v rest := by
  constructor
  · rintro ⟨front, r, back, hqs, hfail, hr⟩
    cases front with
    | nil =>
        obtain ⟨rfl, rfl⟩ := List.cons.inj hqs
        exact Or.inl hr
    | cons q' front =>
        obtain ⟨rfl, rfl⟩ := List.cons.inj hqs
        obtain ⟨⟨e, he⟩, hlater⟩ := allFail_cons.mp hfail
        exact Or.inr ⟨e, he, front, r, back, rfl, hlater, hr⟩
  · rintro (hq | ⟨e, he, front, r, back, rfl, hlater, hr⟩)
    · exact ⟨[], q, qs, rfl, by simp [AllFail], hq⟩
    · exact ⟨q :: front, r, back, rfl, allFail_cons.mpr ⟨⟨e, he⟩, hlater⟩, hr⟩

theorem lastFails_singleton : LastFails [q] c e ↔ q.Returns c (.failure e) := by
  constructor
  · rintro ⟨front, r, hq, -, hr⟩
    have hlast : q = r := by simpa using congrArg List.getLast? hq
    rw [hlast]
    exact hr
  · intro hq
    exact ⟨[], q, rfl, by simp [AllFail], hq⟩

theorem lastFails_cons_cons :
    LastFails (q :: r :: qs) c e ↔
      ∃ e', q.Returns c (.failure e') ∧ LastFails (r :: qs) c e := by
  constructor
  · rintro ⟨front, s, hqs, hfail, hs⟩
    cases front with
    | nil =>
        -- The last of two parsers is not the first one.
        simp at hqs
    | cons q' front =>
        obtain ⟨rfl, hrest⟩ := List.cons.inj hqs
        obtain ⟨⟨e', he'⟩, hlater⟩ := allFail_cons.mp hfail
        exact ⟨e', he', front, s, hrest, hlater, hs⟩
  · rintro ⟨e', he', front, s, hrest, hlater, hs⟩
    refine ⟨q :: front, s, ?_, allFail_cons.mpr ⟨⟨e', he'⟩, hlater⟩, hs⟩
    rw [hrest, List.cons_append]

end First

/-! ## Choices from the left -/

/-- Tries the parser `q` and then each of `qs` until one succeeds. -/
def firstOf : Parser σ α → List (Parser σ α) → Parser σ α
  | q, [] => q
  | q, r :: qs => q.orElse (firstOf r qs)

section FirstOf

variable {q : Parser σ α} {qs : List (Parser σ α)} {c rest : σ} {v : α} {e : ParseError}

theorem firstOf_append (p : Parser σ α) (ps : List (Parser σ α)) (q : Parser σ α)
    (qs : List (Parser σ α)) :
    firstOf p (ps ++ q :: qs) = (firstOf p ps).orElse (firstOf q qs) := by
  induction ps generalizing p with
  | nil => rfl
  | cons p' ps ih =>
      calc firstOf p (p' :: ps ++ q :: qs)
          = p.orElse (firstOf p' (ps ++ q :: qs)) := rfl
        _ = p.orElse ((firstOf p' ps).orElse (firstOf q qs)) := by rw [ih]
        _ = (firstOf p (p' :: ps)).orElse (firstOf q qs) := (orElse_assoc _ _ _).symm

theorem firstOf_success :
    (firstOf q qs).Returns c (.success v rest) ↔ FirstSucceeds (q :: qs) c v rest := by
  induction qs generalizing q with
  | nil =>
      show q.Returns c (.success v rest) ↔ FirstSucceeds [q] c v rest
      rw [firstSucceeds_cons]
      simp [firstSucceeds_nil]
  | cons r qs ih => rw [firstOf, orElse_success, firstSucceeds_cons, ih]

theorem firstOf_failure :
    (firstOf q qs).Returns c (.failure e) ↔ LastFails (q :: qs) c e := by
  induction qs generalizing q with
  | nil => exact lastFails_singleton.symm
  | cons r qs ih => rw [firstOf, orElse_failure, lastFails_cons_cons, ih]

/-- A choice comes back where its parsers do. -/
theorem firstOf_returns (h : ∀ r ∈ q :: qs, ∃ o, r.Returns c o) :
    ∃ o, (firstOf q qs).Returns c o := by
  induction qs generalizing q with
  | nil => exact h q List.mem_cons_self
  | cons r qs ih =>
      obtain ⟨hfirst, hlater⟩ := List.forall_mem_cons.mp h
      obtain ⟨o, ho⟩ := hfirst
      cases o with
      | success v rest => exact ⟨_, orElse_success.mpr (Or.inl ho)⟩
      | failure e =>
          obtain ⟨o', ho'⟩ := ih hlater
          exact ⟨o', returns_orElse.mpr (Or.inr ⟨e, ho, ho'⟩)⟩

/-- A common first part is taken out of all alternatives. -/
theorem firstOf_both (p : Parser σ β) (q : Parser σ α) (qs : List (Parser σ α)) :
    firstOf (p.both q) (qs.map fun r => p.both r) = p.both (firstOf q qs) := by
  induction qs generalizing q with
  | nil => rfl
  | cons r qs ih =>
      calc firstOf (p.both q) ((r :: qs).map fun r => p.both r)
          = (p.both q).orElse (firstOf (p.both r) (qs.map fun r => p.both r)) := rfl
        _ = (p.both q).orElse (p.both (firstOf r qs)) := by rw [ih]
        _ = p.both (firstOf q (r :: qs)) := both_orElse _ _ _

end FirstOf

/-! ## Bracketings -/

/-- The ways to bracket the parsers `q` and then `qs` by `orElse`. -/
inductive OrTree {σ α : Type} : Parser σ α → List (Parser σ α) → Type where
  | leaf (q : Parser σ α) : OrTree q []
  | node {p q : Parser σ α} {ps qs : List (Parser σ α)} (l : OrTree p ps) (r : OrTree q qs) :
      OrTree p (ps ++ q :: qs)

namespace OrTree

variable {q : Parser σ α} {qs : List (Parser σ α)}

/-- The parser that a tree of `orElse` nodes is. -/
def parser {q : Parser σ α} {qs : List (Parser σ α)} : OrTree q qs → Parser σ α
  | leaf q => q
  | node l r => l.parser.orElse r.parser

/-- **However the alternatives are bracketed, they are tried from the left.** -/
theorem parser_eq (t : OrTree q qs) : t.parser = firstOf q qs := by
  induction t with
  | leaf q => rfl
  | node l r ihl ihr => rw [parser, ihl, ihr, firstOf_append]

/-- A choice between sequences with the same first part is that part and then a choice. -/
theorem parser_both (t : OrTree q qs) (p : Parser σ β)
    (s : OrTree (p.both q) (qs.map fun r => p.both r)) : s.parser = p.both t.parser := by
  rw [s.parser_eq, t.parser_eq, firstOf_both]

end OrTree

/-! ## The first success, the last error, the common part -/

/-- **A choice returns its first success or its last error, and a common first part can be taken out
of it.** Let `t` be a tree of `orElse` nodes over the parsers `q` and then `qs`. It succeeds on `c`
exactly as the first of them does that succeeds on `c` itself, while those before it fail, and it
fails exactly if all fail, with the error of the last one. It comes back where they do. And for
every parser `p`, whatever tree over the sequences of `p` and each of them is taken, it returns what
`p` and behind it `t` returns; it comes back if `p` does and the others do where `p` stops. -/
theorem choice_first_success {q : Parser σ α} {qs : List (Parser σ α)} (t : OrTree q qs) (c : σ) :
    (∀ v rest, t.parser.Returns c (.success v rest) ↔ FirstSucceeds (q :: qs) c v rest)
    ∧ (∀ e, t.parser.Returns c (.failure e) ↔ LastFails (q :: qs) c e)
    ∧ ((∀ r ∈ q :: qs, ∃ o, r.Returns c o) → ∃ o, t.parser.Returns c o)
    ∧ ∀ (β : Type) (p : Parser σ β) (s : OrTree (p.both q) (qs.map fun r => p.both r)),
        (∀ o, s.parser.Returns c o ↔ (p.both t.parser).Returns c o)
        ∧ ((∃ o, p.Returns c o) →
          (∀ v mid, p.Returns c (.success v mid) → ∀ r ∈ q :: qs, ∃ o, r.Returns mid o) →
          ∃ o, s.parser.Returns c o) := by
  refine ⟨fun v rest => ?_, fun e => ?_, fun hreturns => ?_, fun β p s => ⟨fun o => ?_, ?_⟩⟩
  · rw [t.parser_eq, firstOf_success]
  · rw [t.parser_eq, firstOf_failure]
  · rw [t.parser_eq]
    exact firstOf_returns hreturns
  · rw [t.parser_both p s]
  · intro hp hbehind
    rw [t.parser_both p s, t.parser_eq, both_eq_bind_map]
    refine bind_returns hp fun v mid hmid => ?_
    have hchoice : ∃ o, (firstOf q qs).Returns mid o := firstOf_returns (hbehind v mid hmid)
    exact map_returns hchoice fun w => (v, w)

/-- Three alternatives, of which the first two begin with the same letter. The second one succeeds
where the first one has read a letter in vain; where none succeeds the error is that of the last
one, though the others had come further; and behind a common letter the choice is the same. -/
theorem choice_first_success_letters :
    let b : Parser TextCursor Char := (token 'a').right (token 'b')
    let d : Parser TextCursor Char := (token 'a').right (token 'd')
    let x : Parser TextCursor Char := token 'x'
    ((b.orElse d).orElse x).Returns (TextCursor.start "ade")
        (.success 'd' (Cursor.advance 2 (TextCursor.start "ade")))
    ∧ (b.orElse (d.orElse x)).Returns (TextCursor.start "aye")
        (.failure (.unexpected "'x'" "'a'" 0))
    ∧ (((x.both b).orElse (x.both d)).orElse (x.both x)).Returns (TextCursor.start "xade")
        (.success ('x', 'd') (Cursor.advance 3 (TextCursor.start "xade")))
    ∧ ∃ o,
        (((x.both b).orElse (x.both d)).orElse (x.both x)).Returns (TextCursor.start "xy") o := by
  intro b d x
  let t : OrTree b [d, x] := .node (.node (.leaf b) (.leaf d)) (.leaf x)
  let t' : OrTree b [d, x] := .node (.leaf b) (.node (.leaf d) (.leaf x))
  let s : OrTree (x.both b) [x.both d, x.both x] :=
    .node (.node (.leaf (x.both b)) (.leaf (x.both d))) (.leaf (x.both x))
  have hreturns : ∀ c, ∀ r ∈ [b, d, x], ∃ o, r.Returns c o := by
    intro c r hr
    simp only [List.mem_cons, List.not_mem_nil, or_false] at hr
    rcases hr with rfl | rfl | rfl
    · exact bind_returns ⟨_, 0, rfl⟩ fun _ _ _ => ⟨_, 0, rfl⟩
    · exact bind_returns ⟨_, 0, rfl⟩ fun _ _ _ => ⟨_, 0, rfl⟩
    · exact ⟨_, 0, rfl⟩
  have hfail : ∀ c e, b.Returns c (.failure e) → AllFail [b] c := by
    intro c e he r hr
    obtain rfl := List.mem_singleton.mp hr
    exact ⟨e, he⟩
  refine ⟨?_, ?_, ?_, ?_⟩
  · refine ((choice_first_success t _).1 _ _).mpr ⟨[b], d, [x], rfl, ?_, 0, rfl⟩
    exact hfail _ (.unexpected "'b'" "'d'" 1) ⟨0, rfl⟩
  · refine ((choice_first_success t' _).2.1 _).mpr ⟨[b, d], x, rfl, ?_, 0, rfl⟩
    have hb : AllFail [b] (TextCursor.start "aye") :=
      hfail _ (.unexpected "'b'" "'y'" 1) ⟨0, rfl⟩
    exact allFail_cons.mpr ⟨hb b (by simp), fun r hr => by
      obtain rfl := List.mem_singleton.mp hr
      exact ⟨.unexpected "'d'" "'y'" 1, 0, rfl⟩⟩
  · obtain ⟨-, -, -, hfactor⟩ := choice_first_success t (TextCursor.start "xade")
    exact ((hfactor Char x s).1 _).mpr ⟨0, rfl⟩
  · obtain ⟨-, -, -, hfactor⟩ := choice_first_success t (TextCursor.start "xy")
    exact (hfactor Char x s).2 ⟨_, 0, rfl⟩ fun _ mid _ => hreturns mid

end Parser

end ParserKit

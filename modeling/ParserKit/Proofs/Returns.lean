import ParserKit.Parser.Refine
import ParserKit.Parser.Repetition
import ParserKit.Parser.Sequence

set_option autoImplicit false

/-! # What composite parsers return

The combinators are defined by what they run within a budget. Here each of them gets a description
without budgets: what it returns (`Parser.Returns`), said of what its parts return. There is one
statement for success and one for failure, and no later proof has to look at budgets or to open a
combinator.

All combinators but the two loops are of one of two forms: they go on from a success of their first
part or from a failure of it. What they return is proved once for each form, by joining the budgets
of the parts (`returns_bind`, `returns_orElse`); where the second part is no parser but a plain
function of the outcome, there is nothing to join (`returns_of_andThen`, `returns_of_recover`).
-/

namespace ParserKit.Parser

variable {σ τ α β γ : Type}

/-! ## The two forms -/

/-- Runs `p`, and behind it the parser that `next` makes of the value of `p`. -/
protected def bind (p : Parser σ α) (next : α → Parser σ β) : Parser σ β where
  run n c := (p.run n c).andThen fun v rest => (next v).run n rest
  approx_succ n c := (p.approx_succ n c).andThen fun v rest => (next v).approx_succ n rest

theorem returns_bind {p : Parser σ α} {next : α → Parser σ β} {c : σ} {o : Outcome σ β} :
    (p.bind next).Returns c o ↔
      (∃ v mid, p.Returns c (.success v mid) ∧ (next v).Returns mid o)
        ∨ ∃ e, p.Returns c (.failure e) ∧ o = .failure e := by
  constructor
  · rintro ⟨n, hn⟩
    rcases Run.andThen_eq_ok.mp hn with ⟨v, mid, hp, hq⟩ | ⟨e, hp, ho⟩
    · exact Or.inl ⟨v, mid, ⟨n, hp⟩, ⟨n, hq⟩⟩
    · exact Or.inr ⟨e, ⟨n, hp⟩, ho⟩
  · rintro (⟨v, mid, ⟨n, hp⟩, ⟨m, hq⟩⟩ | ⟨e, ⟨n, hp⟩, ho⟩)
    · -- Both parts come back within the larger of their budgets.
      have hp' := p.run_of_le (Nat.le_max_left n m) hp
      have hq' := (next v).run_of_le (Nat.le_max_right n m) hq
      exact ⟨max n m, Run.andThen_eq_ok.mpr (Or.inl ⟨v, mid, hp', hq'⟩)⟩
    · exact ⟨n, Run.andThen_eq_ok.mpr (Or.inr ⟨e, hp, ho⟩)⟩

theorem returns_orElse {p q : Parser σ α} {c : σ} {o : Outcome σ α} :
    (p.orElse q).Returns c o ↔
      (∃ v rest, p.Returns c (.success v rest) ∧ o = .success v rest)
        ∨ ∃ e, p.Returns c (.failure e) ∧ q.Returns c o := by
  constructor
  · rintro ⟨n, hn⟩
    rcases Run.recover_eq_ok.mp hn with ⟨v, rest, hp, ho⟩ | ⟨e, hp, hq⟩
    · exact Or.inl ⟨v, rest, ⟨n, hp⟩, ho⟩
    · exact Or.inr ⟨e, ⟨n, hp⟩, ⟨n, hq⟩⟩
  · rintro (⟨v, rest, ⟨n, hp⟩, ho⟩ | ⟨e, ⟨n, hp⟩, ⟨m, hq⟩⟩)
    · exact ⟨n, Run.recover_eq_ok.mpr (Or.inl ⟨v, rest, hp, ho⟩)⟩
    · have hp' := p.run_of_le (Nat.le_max_left n m) hp
      have hq' := q.run_of_le (Nat.le_max_right n m) hq
      exact ⟨max n m, Run.recover_eq_ok.mpr (Or.inr ⟨e, hp', hq'⟩)⟩

/-- A parser that runs `p` and goes on from its success with a plain function. -/
theorem returns_of_andThen {p : Parser σ α} {q : Parser σ β} {c : σ} {f : α → σ → Run σ β}
    (hq : ∀ n, q.run n c = (p.run n c).andThen f) {o : Outcome σ β} :
    q.Returns c o ↔
      (∃ v mid, p.Returns c (.success v mid) ∧ f v mid = .ok o)
        ∨ ∃ e, p.Returns c (.failure e) ∧ o = .failure e := by
  constructor
  · rintro ⟨n, hn⟩
    rw [hq n] at hn
    rcases Run.andThen_eq_ok.mp hn with ⟨v, mid, hp, hf⟩ | ⟨e, hp, ho⟩
    · exact Or.inl ⟨v, mid, ⟨n, hp⟩, hf⟩
    · exact Or.inr ⟨e, ⟨n, hp⟩, ho⟩
  · -- `f` needs no budget, so that of `p` is enough.
    rintro (⟨v, mid, ⟨n, hp⟩, hf⟩ | ⟨e, ⟨n, hp⟩, ho⟩)
    · refine ⟨n, ?_⟩
      rw [hq n]
      exact Run.andThen_eq_ok.mpr (Or.inl ⟨v, mid, hp, hf⟩)
    · refine ⟨n, ?_⟩
      rw [hq n]
      exact Run.andThen_eq_ok.mpr (Or.inr ⟨e, hp, ho⟩)

/-- A parser that runs `p` and goes on from its failure with a plain function. -/
theorem returns_of_recover {p q : Parser σ α} {c : σ} {f : ParseError → Run σ α}
    (hq : ∀ n, q.run n c = (p.run n c).recover f) {o : Outcome σ α} :
    q.Returns c o ↔
      (∃ v rest, p.Returns c (.success v rest) ∧ o = .success v rest)
        ∨ ∃ e, p.Returns c (.failure e) ∧ f e = .ok o := by
  constructor
  · rintro ⟨n, hn⟩
    rw [hq n] at hn
    rcases Run.recover_eq_ok.mp hn with ⟨v, rest, hp, ho⟩ | ⟨e, hp, hf⟩
    · exact Or.inl ⟨v, rest, ⟨n, hp⟩, ho⟩
    · exact Or.inr ⟨e, ⟨n, hp⟩, hf⟩
  · rintro (⟨v, rest, ⟨n, hp⟩, ho⟩ | ⟨e, ⟨n, hp⟩, hf⟩)
    · refine ⟨n, ?_⟩
      rw [hq n]
      exact Run.recover_eq_ok.mpr (Or.inl ⟨v, rest, hp, ho⟩)
    · refine ⟨n, ?_⟩
      rw [hq n]
      exact Run.recover_eq_ok.mpr (Or.inr ⟨e, hp, hf⟩)

/-! ## Primitive parsers -/

@[simp] theorem returns_stuck {c : σ} {o : Outcome σ α} : ¬ (stuck : Parser σ α).Returns c o := by
  rintro ⟨n, hn⟩
  cases hn

@[simp] theorem returns_abort {cause : Fault} {c : σ} {o : Outcome σ α} :
    ¬ (abort cause : Parser σ α).Returns c o := by
  rintro ⟨n, hn⟩
  cases hn

@[simp] theorem returns_pure {v : α} {c : σ} {o : Outcome σ α} :
    (Parser.pure v).Returns c o ↔ o = .success v c := by
  rw [Parser.pure, returns_ofFunction, eq_comm]

@[simp] theorem returns_emptyList {c : σ} {o : Outcome σ (List α)} :
    (emptyList : Parser σ (List α)).Returns c o ↔ o = .success [] c := by
  rw [emptyList, returns_ofFunction, eq_comm]

section Tokens

variable [Cursor σ τ] [Describe τ] {expected : String} {accept : τ → Bool} {c rest : σ}

@[simp] theorem satisfy_success {t : τ} :
    (satisfy expected accept).Returns c (.success t rest) ↔
      Cursor.next? c = some (t, rest) ∧ accept t = true := by
  rw [satisfy, returns_ofFunction]
  cases h : Cursor.next? c with
  | none => simp
  | some read =>
      obtain ⟨t', rest'⟩ := read
      by_cases ha : accept t' = true
      · simp only [ha, if_true, Outcome.success.injEq, Option.some.injEq, Prod.mk.injEq]
        constructor
        · rintro ⟨rfl, rfl⟩
          exact ⟨⟨rfl, rfl⟩, ha⟩
        · exact fun hread => hread.1
      · simp only [ha, Option.some.injEq, Prod.mk.injEq]
        constructor
        · intro hread
          cases hread
        · rintro ⟨⟨rfl, rfl⟩, ha'⟩
          exact absurd ha' ha

/-- A refusal of `satisfy` reports what stands at the cursor. -/
@[simp] theorem satisfy_failure {e : ParseError} :
    (satisfy expected accept : Parser σ τ).Returns c (.failure e) ↔
      (Cursor.next? c = none ∧ e = .endOfInput expected (Cursor.position c))
        ∨ ∃ t rest, Cursor.next? c = some (t, rest) ∧ accept t = false
            ∧ e = .unexpected expected (describe t) (Cursor.position c) := by
  rw [satisfy, returns_ofFunction]
  cases h : Cursor.next? c with
  | none =>
      show Outcome.failure _ = Outcome.failure e ↔ _
      rw [Outcome.failure.injEq, eq_comm]
      simp
  | some read =>
      obtain ⟨t', rest'⟩ := read
      by_cases ha : accept t' = true
      · simp [ha]
      · simp only [ha, Bool.false_eq_true, if_false]
        rw [Outcome.failure.injEq, eq_comm]
        simp [ha]

@[simp] theorem endOfInput_success {u : Unit} :
    (endOfInput : Parser σ Unit).Returns c (.success u rest) ↔
      Cursor.next? c = none ∧ rest = c := by
  rw [endOfInput, returns_ofFunction]
  cases h : Cursor.next? c with
  | none => simp [eq_comm]
  | some read => simp

@[simp] theorem endOfInput_failure {e : ParseError} :
    (endOfInput : Parser σ Unit).Returns c (.failure e) ↔
      ∃ t rest, Cursor.next? c = some (t, rest)
        ∧ e = .unexpected "end of input" (describe t) (Cursor.position c) := by
  rw [endOfInput, returns_ofFunction]
  cases h : Cursor.next? c with
  | none => simp
  | some read =>
      obtain ⟨t, rest⟩ := read
      show Outcome.failure _ = Outcome.failure e ↔ _
      rw [Outcome.failure.injEq, eq_comm]
      simp

end Tokens

/-! ## Sequences

All of them are of the first form and differ in their last step only. -/

section Sequences

variable {c rest : σ} {e : ParseError}

@[simp] theorem map_success {p : Parser σ α} {f : α → β} {w : β} :
    (p.map f).Returns c (.success w rest) ↔ ∃ v, p.Returns c (.success v rest) ∧ f v = w := by
  rw [returns_of_andThen fun _ => rfl]
  constructor
  · rintro (⟨v, mid, hp, ⟨⟩⟩ | ⟨_, _, ⟨⟩⟩)
    exact ⟨v, hp, rfl⟩
  · rintro ⟨v, hp, rfl⟩
    exact Or.inl ⟨v, rest, hp, rfl⟩

@[simp] theorem map_failure {p : Parser σ α} {f : α → β} :
    (p.map f).Returns c (.failure e) ↔ p.Returns c (.failure e) := by
  rw [returns_of_andThen fun _ => rfl]
  constructor
  · rintro (⟨_, _, _, ⟨⟩⟩ | ⟨_, hp, ⟨⟩⟩)
    exact hp
  · exact fun hp => Or.inr ⟨e, hp, rfl⟩

/-- A computation that has no value lets nothing return. -/
@[simp] theorem evaluate_success {p : Parser σ (Except Fault α)} {v : α} :
    p.evaluate.Returns c (.success v rest) ↔ p.Returns c (.success (.ok v) rest) := by
  rw [returns_of_andThen fun _ => rfl]
  constructor
  · rintro (⟨w, mid, hp, hw⟩ | ⟨_, _, ⟨⟩⟩)
    cases w with
    | error cause => cases hw
    | ok a =>
        cases hw
        exact hp
  · exact fun hp => Or.inl ⟨.ok v, rest, hp, rfl⟩

@[simp] theorem evaluate_failure {p : Parser σ (Except Fault α)} :
    p.evaluate.Returns c (.failure e) ↔ p.Returns c (.failure e) := by
  rw [returns_of_andThen fun _ => rfl]
  constructor
  · rintro (⟨w, _, _, hw⟩ | ⟨_, hp, ⟨⟩⟩)
    · cases w <;> cases hw
    · exact hp
  · exact fun hp => Or.inr ⟨e, hp, rfl⟩

theorem apply_eq (f : Parser σ (α → β)) (a : Parser σ α) :
    f.apply a = f.bind fun g => a.bind fun v => Parser.pure (g v) := rfl

theorem both_eq (p : Parser σ α) (q : Parser σ β) :
    p.both q = p.bind fun a => q.bind fun b => Parser.pure (a, b) := rfl

theorem left_eq (p : Parser σ α) (q : Parser σ β) :
    p.left q = p.bind fun a => q.bind fun _ => Parser.pure a := rfl

theorem right_eq (p : Parser σ α) (q : Parser σ β) : p.right q = p.bind fun _ => q := rfl

theorem between_eq (opening : Parser σ α) (body : Parser σ β) (closing : Parser σ γ) :
    Parser.between opening body closing
      = opening.bind fun _ => body.bind fun b => closing.bind fun _ => Parser.pure b := rfl

@[simp] theorem apply_success {f : Parser σ (α → β)} {a : Parser σ α} {w : β} :
    (f.apply a).Returns c (.success w rest) ↔
      ∃ g mid v, f.Returns c (.success g mid) ∧ a.Returns mid (.success v rest) ∧ g v = w := by
  simp [apply_eq, returns_bind, eq_comm]

@[simp] theorem apply_failure {f : Parser σ (α → β)} {a : Parser σ α} :
    (f.apply a).Returns c (.failure e) ↔
      f.Returns c (.failure e)
        ∨ ∃ g mid, f.Returns c (.success g mid) ∧ a.Returns mid (.failure e) := by
  simp [apply_eq, returns_bind, or_comm]

@[simp] theorem both_success {p : Parser σ α} {q : Parser σ β} {w : α × β} :
    (p.both q).Returns c (.success w rest) ↔
      ∃ mid, p.Returns c (.success w.1 mid) ∧ q.Returns mid (.success w.2 rest) := by
  obtain ⟨a, b⟩ := w
  simp only [both_eq, returns_bind, returns_pure, Outcome.success.injEq, reduceCtorEq, and_false,
    exists_false, or_false]
  constructor
  · rintro ⟨a', mid, hp, b', rest', hq, ⟨⟩, rfl⟩
    exact ⟨mid, hp, hq⟩
  · rintro ⟨mid, hp, hq⟩
    exact ⟨a, mid, hp, b, rest, hq, rfl, rfl⟩

@[simp] theorem both_failure {p : Parser σ α} {q : Parser σ β} :
    (p.both q).Returns c (.failure e) ↔
      p.Returns c (.failure e)
        ∨ ∃ a mid, p.Returns c (.success a mid) ∧ q.Returns mid (.failure e) := by
  simp [both_eq, returns_bind, or_comm]

@[simp] theorem left_success {p : Parser σ α} {q : Parser σ β} {v : α} :
    (p.left q).Returns c (.success v rest) ↔
      ∃ b mid, p.Returns c (.success v mid) ∧ q.Returns mid (.success b rest) := by
  simp only [left_eq, returns_bind, returns_pure, Outcome.success.injEq, reduceCtorEq, and_false,
    exists_false, or_false]
  constructor
  · rintro ⟨a, mid, hp, b, rest', hq, rfl, rfl⟩
    exact ⟨b, mid, hp, hq⟩
  · rintro ⟨b, mid, hp, hq⟩
    exact ⟨v, mid, hp, b, rest, hq, rfl, rfl⟩

@[simp] theorem left_failure {p : Parser σ α} {q : Parser σ β} :
    (p.left q).Returns c (.failure e) ↔
      p.Returns c (.failure e)
        ∨ ∃ a mid, p.Returns c (.success a mid) ∧ q.Returns mid (.failure e) := by
  simp [left_eq, returns_bind, or_comm]

@[simp] theorem right_success {p : Parser σ α} {q : Parser σ β} {w : β} :
    (p.right q).Returns c (.success w rest) ↔
      ∃ a mid, p.Returns c (.success a mid) ∧ q.Returns mid (.success w rest) := by
  simp [right_eq, returns_bind]

@[simp] theorem right_failure {p : Parser σ α} {q : Parser σ β} :
    (p.right q).Returns c (.failure e) ↔
      p.Returns c (.failure e)
        ∨ ∃ a mid, p.Returns c (.success a mid) ∧ q.Returns mid (.failure e) := by
  simp [right_eq, returns_bind, or_comm]

@[simp] theorem between_success {opening : Parser σ α} {body : Parser σ β} {closing : Parser σ γ}
    {v : β} :
    (Parser.between opening body closing).Returns c (.success v rest) ↔
      ∃ a mid b mid', opening.Returns c (.success a mid) ∧ body.Returns mid (.success v mid')
        ∧ closing.Returns mid' (.success b rest) := by
  simp only [between_eq, returns_bind, returns_pure, Outcome.success.injEq, reduceCtorEq, and_false,
    exists_false, or_false]
  constructor
  · rintro ⟨a, mid, ho, w, mid', hb, b, rest', hc, rfl, rfl⟩
    exact ⟨a, mid, b, mid', ho, hb, hc⟩
  · rintro ⟨a, mid, b, mid', ho, hb, hc⟩
    exact ⟨a, mid, ho, v, mid', hb, b, rest, hc, rfl, rfl⟩

@[simp] theorem between_failure {opening : Parser σ α} {body : Parser σ β} {closing : Parser σ γ} :
    (Parser.between opening body closing).Returns c (.failure e) ↔
      opening.Returns c (.failure e)
        ∨ ∃ a mid, opening.Returns c (.success a mid)
            ∧ (body.Returns mid (.failure e)
              ∨ ∃ v mid', body.Returns mid (.success v mid') ∧ closing.Returns mid' (.failure e)) := by
  simp [between_eq, returns_bind, or_comm]

end Sequences

/-! ## Choice -/

section Choice

variable {p q : Parser σ α} {v : α} {c rest : σ} {e : ParseError}

@[simp] theorem orElse_success :
    (p.orElse q).Returns c (.success v rest) ↔
      p.Returns c (.success v rest)
        ∨ ∃ e, p.Returns c (.failure e) ∧ q.Returns c (.success v rest) := by
  rw [returns_orElse]
  constructor
  · rintro (⟨v', rest', hp, ⟨⟩⟩ | hq)
    · exact Or.inl hp
    · exact Or.inr hq
  · rintro (hp | hq)
    · exact Or.inl ⟨v, rest, hp, rfl⟩
    · exact Or.inr hq

/-- If both alternatives fail, the error is that of the second. -/
@[simp] theorem orElse_failure :
    (p.orElse q).Returns c (.failure e) ↔
      ∃ e', p.Returns c (.failure e') ∧ q.Returns c (.failure e) := by
  simp [returns_orElse]

@[simp] theorem optional_success {fallback : α} :
    (p.optional fallback).Returns c (.success v rest) ↔
      p.Returns c (.success v rest)
        ∨ ∃ e, p.Returns c (.failure e) ∧ v = fallback ∧ rest = c := by
  simp [Parser.optional]

@[simp] theorem optional_failure {fallback : α} :
    ¬ (p.optional fallback).Returns c (.failure e) := by
  simp [Parser.optional]

end Choice

/-! ## Refinements -/

section Refinements

variable [Cursor σ τ] {p : Parser σ α} {v : α} {c rest : σ} {e : ParseError}

@[simp] theorem filter_success {accept : α → Bool} {text : String} :
    (p.filter accept text).Returns c (.success v rest) ↔
      p.Returns c (.success v rest) ∧ accept v = true := by
  rw [returns_of_andThen fun _ => rfl]
  constructor
  · rintro (⟨v', mid, hp, hv⟩ | ⟨_, _, ⟨⟩⟩)
    by_cases ha : accept v' = true
    · rw [if_pos ha] at hv
      cases hv
      exact ⟨hp, ha⟩
    · rw [if_neg ha] at hv
      cases hv
  · rintro ⟨hp, ha⟩
    refine Or.inl ⟨v, rest, hp, ?_⟩
    rw [if_pos ha, Run.success]

/-- A refused value is reported with the filter's text, at the cursor on which the filter ran. -/
@[simp] theorem filter_failure {accept : α → Bool} {text : String} :
    (p.filter accept text).Returns c (.failure e) ↔
      p.Returns c (.failure e)
        ∨ ∃ v mid, p.Returns c (.success v mid) ∧ accept v = false
            ∧ e = .message text (Cursor.position c) := by
  rw [returns_of_andThen fun _ => rfl]
  constructor
  · rintro (⟨v, mid, hp, hv⟩ | ⟨e', hp, ⟨⟩⟩)
    · by_cases ha : accept v = true
      · rw [if_pos ha] at hv
        cases hv
      · rw [if_neg ha] at hv
        cases hv
        exact Or.inr ⟨v, mid, hp, by simpa using ha, rfl⟩
    · exact Or.inl hp
  · rintro (hp | ⟨v, mid, hp, ha, rfl⟩)
    · exact Or.inr ⟨e, hp, rfl⟩
    · refine Or.inl ⟨v, mid, hp, ?_⟩
      rw [if_neg (by simp [ha]), Run.failure]

@[simp] theorem label_success [Describe τ] {expected : String} :
    (p.label expected).Returns c (.success v rest) ↔ p.Returns c (.success v rest) := by
  rw [returns_of_recover fun _ => rfl]
  constructor
  · rintro (⟨v', rest', hp, ⟨⟩⟩ | ⟨e, hp, he⟩)
    · exact hp
    · -- What a label makes of an error is an error.
      cases h : Cursor.next? c <;> rw [h] at he <;> cases he
  · exact fun hp => Or.inl ⟨v, rest, hp, rfl⟩

/-- A label reports what stands at the cursor, whatever the error that it replaces. -/
@[simp] theorem label_failure [Describe τ] {expected : String} :
    (p.label expected).Returns c (.failure e) ↔
      (∃ e', p.Returns c (.failure e'))
        ∧ ((Cursor.next? c = none ∧ e = .endOfInput expected (Cursor.position c))
          ∨ ∃ t rest, Cursor.next? c = some (t, rest)
              ∧ e = .unexpected expected (describe t) (Cursor.position c)) := by
  rw [returns_of_recover fun _ => rfl]
  constructor
  · rintro (⟨_, _, _, ⟨⟩⟩ | ⟨e', hp, he⟩)
    refine ⟨⟨e', hp⟩, ?_⟩
    cases h : Cursor.next? c with
    | none =>
        rw [h] at he
        cases he
        exact Or.inl ⟨rfl, rfl⟩
    | some read =>
        rw [h] at he
        cases he
        exact Or.inr ⟨read.1, read.2, rfl, rfl⟩
  · rintro ⟨⟨e', hp⟩, ⟨h, rfl⟩ | ⟨t, rest, h, rfl⟩⟩
    · refine Or.inr ⟨e', hp, ?_⟩
      rw [h]
      rfl
    · refine Or.inr ⟨e', hp, ?_⟩
      rw [h]
      rfl

@[simp] theorem spanned_success {w : α × Span} :
    p.spanned.Returns c (.success w rest) ↔
      p.Returns c (.success w.1 rest) ∧ w.2 = ⟨Cursor.position c, Cursor.position rest⟩ := by
  rw [returns_of_andThen fun _ => rfl]
  constructor
  · rintro (⟨v, mid, hp, ⟨⟩⟩ | ⟨_, _, ⟨⟩⟩)
    exact ⟨hp, rfl⟩
  · obtain ⟨v, s⟩ := w
    rintro ⟨hp, rfl⟩
    exact Or.inl ⟨v, rest, hp, rfl⟩

@[simp] theorem spanned_failure :
    p.spanned.Returns c (.failure e) ↔ p.Returns c (.failure e) := by
  rw [returns_of_andThen fun _ => rfl]
  constructor
  · rintro (⟨_, _, _, ⟨⟩⟩ | ⟨_, hp, ⟨⟩⟩)
    exact hp
  · exact fun hp => Or.inr ⟨e, hp, rfl⟩

end Refinements

end ParserKit.Parser

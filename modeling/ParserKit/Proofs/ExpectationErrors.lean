import ParserKit.Proofs.Alternatives
import ParserKit.Proofs.Reading

set_option autoImplicit false

/-! # What was expected and is not there

That something was expected at a cursor and is not there is reported by `satisfy` of a token that it
refuses, and by `label` in place of whatever error its parser had. Each makes the error for itself.
Here both are shown to make the same one, `absence expected c`, which names the token at the cursor
or the end of the input, and the position of the cursor.

It follows that a label is an alternative that refuses every token (`label_eq_orElse_satisfy`), that
of two labels the outer one counts (`label_label`), and that a test of one token may as well be made
behind it, by a filter, as long as a label speaks for it (`label_filter_anyToken`). These are
equations between parsers: they hold on every cursor, also on one behind the end of its source,
where the position that is reported is the end of the source (`absence_eq`).
-/

namespace ParserKit.Parser

open Cursor SourceCursor

section Absence

variable {σ τ α : Type} [Cursor σ τ] [Describe τ]

/-! ## The error -/

/-- The error that `expected` is not what stands at the cursor. -/
def absence (expected : String) (c : σ) : ParseError :=
  match next? c with
  | some (t, _) => .unexpected expected (describe t) (position c)
  | none => .endOfInput expected (position c)

theorem absence_of_next {expected : String} {c rest : σ} {t : τ} (h : next? c = some (t, rest)) :
    absence expected c = .unexpected expected (describe t) (position c) := by
  rw [absence, h]

theorem absence_of_end {expected : String} {c : σ} (h : next? c = none) :
    absence expected c = .endOfInput expected (position c) := by
  rw [absence, h]

/-! ## The parsers that make it -/

theorem label_run (p : Parser σ α) (expected : String) (n : Nat) (c : σ) :
    (p.label expected).run n c
      = (p.run n c).recover fun _ => Run.failure (absence expected c) := by
  show (p.run n c).recover _ = _
  congr
  funext e
  cases h : next? c with
  | none => rw [absence_of_end h]
  | some read => rw [absence_of_next h]

theorem satisfy_run_of_end {expected : String} {accept : τ → Bool} {c : σ} (h : next? c = none)
    (n : Nat) :
    (satisfy expected accept : Parser σ τ).run n c = Run.failure (absence expected c) := by
  unfold satisfy ofFunction
  simp only [h, absence_of_end h]
  rfl

theorem satisfy_run_of_next {expected : String} {accept : τ → Bool} {c rest : σ} {t : τ}
    (h : next? c = some (t, rest)) (n : Nat) :
    (satisfy expected accept : Parser σ τ).run n c
      = if accept t then Run.success t rest else Run.failure (absence expected c) := by
  unfold satisfy ofFunction
  simp only [h, absence_of_next h]
  by_cases ha : accept t = true
  · rw [if_pos ha, if_pos ha]
    rfl
  · rw [if_neg ha, if_neg ha]
    rfl

/-- A test that no token passes fails on every cursor. -/
theorem satisfy_never_run (expected : String) (n : Nat) (c : σ) :
    (satisfy expected fun _ => false : Parser σ τ).run n c = Run.failure (absence expected c) := by
  cases h : next? c with
  | none => exact satisfy_run_of_end h n
  | some read =>
      rw [satisfy_run_of_next h]
      rfl

/-! ## Labels -/

/-- A label is an alternative that refuses everything, whatever values it would have had. -/
theorem label_eq_orElse_map_satisfy (p : Parser σ α) (expected : String) (f : τ → α) :
    p.label expected = p.orElse ((satisfy expected fun _ => false).map f) := by
  refine eq_of_run_eq fun n c => ?_
  have hrefused : ((satisfy expected fun _ => false : Parser σ τ).map f).run n c
      = Run.failure (absence expected c) := by
    show ((satisfy expected fun _ => false : Parser σ τ).run n c).andThen _ = _
    rw [satisfy_never_run]
    rfl
  calc (p.label expected).run n c
      = (p.run n c).recover fun _ => Run.failure (absence expected c) := label_run p expected n c
    _ = (p.run n c).recover fun _ =>
          ((satisfy expected fun _ => false : Parser σ τ).map f).run n c := by rw [hrefused]
    _ = (p.orElse ((satisfy expected fun _ => false).map f)).run n c := rfl

theorem label_eq_orElse_satisfy (p : Parser σ τ) (expected : String) :
    p.label expected = p.orElse (satisfy expected fun _ => false) := by
  have hmap : (satisfy expected fun _ => false : Parser σ τ).map (fun t => t)
      = satisfy expected fun _ => false := bind_pure _
  rw [label_eq_orElse_map_satisfy p expected fun t => t, hmap]

/-- Of two labels the outer one counts. -/
theorem label_label (p : Parser σ α) (inner expected : String) :
    (p.label inner).label expected = p.label expected := by
  refine eq_of_run_eq fun n c => ?_
  calc ((p.label inner).label expected).run n c
      = ((p.run n c).recover fun _ => Run.failure (absence inner c)).recover
          fun _ => Run.failure (absence expected c) := by rw [label_run, label_run]
    _ = (p.run n c).recover fun _ => Run.failure (absence expected c) :=
        Run.recover_recover _ _ _
    _ = (p.label expected).run n c := (label_run p expected n c).symm

/-- A token that is tested by a filter, under a label, is a token that is tested. -/
theorem label_filter_anyToken (accept : τ → Bool) (text expected : String) :
    (anyToken.filter accept text).label expected = (satisfy expected accept : Parser σ τ) := by
  refine eq_of_run_eq fun n c => ?_
  have hfilter : (anyToken.filter accept text : Parser σ τ).run n c
      = ((anyToken : Parser σ τ).run n c).andThen fun t rest =>
          if accept t then Run.success t rest else Run.failure (.message text (position c)) := rfl
  rw [label_run, hfilter, anyToken]
  cases h : next? c with
  | none =>
      rw [satisfy_run_of_end h, satisfy_run_of_end h]
      rfl
  | some read =>
      obtain ⟨t, rest⟩ := read
      rw [satisfy_run_of_next h, satisfy_run_of_next h, if_pos rfl]
      by_cases ha : accept t = true
      · simp only [Run.success, Run.andThen, if_pos ha, Run.recover]
      · simp only [Run.success, Run.andThen, if_neg ha, Run.failure, Run.recover]

end Absence

/-! ## The error and the source -/

section Sources

variable {σ τ φ : Type} [SourceCursor σ τ φ] [LawfulCursor σ τ] [TokenSource φ τ]
  [LawfulSource σ τ φ] [Describe τ]

/-- What is found instead is the token of the source at the position of the cursor. If there is none
the input has ended, and the position is the length of the source. -/
theorem absence_eq (expected : String) (c : σ) :
    absence expected c =
      match (tokens (source c))[position c]? with
      | some t => .unexpected expected (describe t) (position c)
      | none => .endOfInput expected (tokens (source c)).length := by
  cases h : next? c with
  | none =>
      have hlength := LawfulSource.position_eq_length h
      rw [absence_of_end h, hlength, List.getElem?_eq_none (Nat.le_refl _)]
  | some read => rw [absence_of_next h, LawfulSource.getElem?_position h]

/-- **What is not there is always reported alike.** A label on a parser is that parser with an
alternative behind it that refuses every token; of two labels the outer one counts; and a label on a
filter behind any token is a test of one token. These are the same parsers: on every cursor they
give the same value and the same cursor, or the same error, or do not come back. The error of a
label is the one that tells the token of the source at the position of the cursor or, where the
source has ended, its length. -/
theorem absence_reported_alike (inner expected text : String) (accept : τ → Bool) :
    (∀ p : Parser σ τ, p.label expected = p.orElse (satisfy expected fun _ => false))
    ∧ (∀ (α : Type) (p : Parser σ α) (f : τ → α),
        p.label expected = p.orElse ((satisfy expected fun _ => false).map f))
    ∧ (∀ (α : Type) (p : Parser σ α), (p.label inner).label expected = p.label expected)
    ∧ (anyToken.filter accept text).label expected = (satisfy expected accept : Parser σ τ)
    ∧ ∀ (α : Type) (p : Parser σ α) (c : σ) (e : ParseError),
        (p.label expected).Returns c (.failure e) ↔
          (∃ e', p.Returns c (.failure e'))
            ∧ e = match (tokens (source c))[position c]? with
              | some t => .unexpected expected (describe t) (position c)
              | none => .endOfInput expected (tokens (source c)).length := by
  refine ⟨fun p => label_eq_orElse_satisfy p expected,
    fun α p f => label_eq_orElse_map_satisfy p expected f, fun α p => label_label p inner expected,
    label_filter_anyToken accept text expected, fun α p c e => ?_⟩
  rw [← absence_eq, returns_of_recover fun n => label_run p expected n c]
  constructor
  · rintro (⟨_, _, _, ⟨⟩⟩ | ⟨e', hfail, ⟨⟩⟩)
    exact ⟨⟨e', hfail⟩, rfl⟩
  · rintro ⟨⟨e', hfail⟩, rfl⟩
    exact Or.inr ⟨e', hfail, rfl⟩

end Sources

/-- A letter where a digit was expected, and a cursor behind the end of its source: there the end of
the source is reported, whichever parser makes the error. -/
theorem absence_reported_alike_digit :
    let filtered : Parser (TokenCursor Char) Char := anyToken.filter Char.isDigit "no digit"
    (satisfy "digit" Char.isDigit : Parser (TokenCursor Char) Char).Returns
        (.valid #['x'] 0) (.failure (.unexpected "digit" "'x'" 0))
    ∧ (filtered.orElse (satisfy "digit" fun _ => false)).Returns
        (.valid #['x'] 7) (.failure (.endOfInput "digit" 1))
    ∧ ((filtered.map Char.toNat).orElse ((satisfy "digit" fun _ => false).map Char.toNat)).Returns
        (.valid #['x'] 7) (.failure (.endOfInput "digit" 1))
    ∧ ((filtered.label "letter").label "digit").Returns
        (.valid #['x'] 7) (.failure (.endOfInput "digit" 1)) := by
  intro filtered
  obtain ⟨hchoice, hmapped, hlabels, hfilter, herror⟩ :=
    absence_reported_alike (σ := TokenCursor Char) "letter" "digit" "no digit" Char.isDigit
  have hrefused : filtered.Returns (.valid #['x'] 0) (.failure (.message "no digit" 0)) := ⟨0, rfl⟩
  have hended : filtered.Returns (.valid #['x'] 7) (.failure (.endOfInput "anything" 1)) := ⟨0, rfl⟩
  refine ⟨?_, ?_, ?_, ?_⟩
  · rw [← hfilter]
    exact (herror Char filtered _ _).mpr ⟨⟨_, hrefused⟩, rfl⟩
  · rw [← hchoice]
    exact (herror Char filtered _ _).mpr ⟨⟨_, hended⟩, rfl⟩
  · rw [← hmapped Nat (filtered.map Char.toNat) Char.toNat]
    exact (herror Nat _ _ _).mpr ⟨⟨_, map_failure.mpr hended⟩, rfl⟩
  · rw [hlabels]
    exact (herror Char filtered _ _).mpr ⟨⟨_, hended⟩, rfl⟩

end ParserKit.Parser

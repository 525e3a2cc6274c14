import ParserKit.Proofs.Consumption
import ParserKit.Proofs.Lockstep

set_option autoImplicit false

/-! # What the equality of cursors means

Cursors are compared by their positions and by what they have left of their sources, whatever they
have passed and however they keep their place. This is all that can be seen of a cursor: equal
cursors yield the same tokens when they are read to the end, and cursors at the same position that
yield the same tokens are equal (`beq_iff_yields`). No parser can tell them apart
(`cursor_equality_observational`): equal cursors are aligned without a shift, so a parser is in step
with itself on them.
-/

namespace ParserKit

open Cursor LawfulCursor SourceCursor

/-! ## Reading to the end -/

section Yields

variable {σ τ : Type} [Cursor σ τ]

/-- Reading from `c` on until nothing is left yields the tokens `ts`. -/
def Yields (c : σ) (ts : List τ) : Prop := ∃ rest, Reads c ts rest ∧ next? rest = none

/-- What a cursor yields is what is to come there; so it yields one sequence, and no other. -/
theorem yields_iff [LawfulCursor σ τ] {c : σ} {ts : List τ} : Yields c ts ↔ upcoming c = ts := by
  constructor
  · rintro ⟨rest, hreads, hend⟩
    rw [hreads.upcoming_eq, (next?_eq_none_iff rest).mp hend, List.append_nil]
  · intro h
    induction ts generalizing c with
    | nil => exact ⟨c, .nil c, (next?_eq_none_iff c).mpr h⟩
    | cons t ts ih =>
        cases hnext : next? c with
        | none =>
            -- Where a token is to come, one can be read.
            rw [(next?_eq_none_iff c).mp hnext] at h
            cases h
        | some read =>
            obtain ⟨u, mid⟩ := read
            rw [upcoming_eq_cons hnext, List.cons.injEq] at h
            obtain ⟨rfl, htail⟩ := h
            obtain ⟨rest, hreads, hend⟩ := ih htail
            exact ⟨rest, .cons hnext hreads, hend⟩

end Yields

/-! ## Equal cursors -/

/-- Cursors whose equality compares positions and what is left of the source. -/
class LawfulCursorBEq (σ : Type) (τ φ : outParam Type) [SourceCursor σ τ φ] [BEq σ] : Prop where
  beq_iff : ∀ c d : σ, (c == d) = true ↔ position c = position d ∧ remaining c = remaining d

instance : LawfulCursorBEq TextCursor Char String where
  beq_iff c d := by
    show (c.position == d.position && c.remaining == d.remaining) = true ↔ _
    rw [Bool.and_eq_true, beq_iff_eq, beq_iff_eq]
    rfl

instance {τ : Type} [BEq τ] [LawfulBEq τ] : LawfulCursorBEq (TokenCursor τ) τ (Array τ) where
  beq_iff c d := by
    show (c.position == d.position && c.remaining == d.remaining) = true ↔ _
    rw [Bool.and_eq_true, beq_iff_eq, beq_iff_eq]
    rfl

section Equality

variable {σ τ φ : Type} [SourceCursor σ τ φ] [LawfulCursor σ τ] [TokenSource φ τ]
  [LawfulTokenSource φ τ] [LawfulSource σ τ φ] [BEq σ] [LawfulCursorBEq σ τ φ]

/-- Equal cursors are those that are aligned without a shift. -/
theorem beq_iff_aligned {c d : σ} : (c == d) = true ↔ Aligned 0 c d := by
  rw [LawfulCursorBEq.beq_iff]
  constructor
  · rintro ⟨hpos, hrest⟩
    refine ⟨?_, by rw [hpos, Nat.zero_add]⟩
    rw [LawfulSource.upcoming_eq_tokens, LawfulSource.upcoming_eq_tokens, hrest]
  · intro h
    exact ⟨by rw [h.position_eq, Nat.zero_add], h.remaining_eq⟩

/-- Cursors are equal exactly if they are at the same position and yield the same tokens. -/
theorem beq_iff_yields {c d : σ} :
    (c == d) = true ↔ position c = position d ∧ ∃ ts, Yields c ts ∧ Yields d ts := by
  rw [beq_iff_aligned]
  constructor
  · intro h
    have hpos : position c = position d := by rw [h.position_eq, Nat.zero_add]
    exact ⟨hpos, upcoming c, yields_iff.mpr rfl, yields_iff.mpr h.upcoming_eq.symm⟩
  · rintro ⟨hpos, ts, hc, hd⟩
    refine ⟨?_, by rw [hpos, Nat.zero_add]⟩
    rw [yields_iff.mp hc, yields_iff.mp hd]

/-! ## Parsers cannot tell equal cursors apart -/

/-- The same outcome up to the equality of cursors. -/
abbrev Outcome.Same {α : Type} : Outcome σ α → Outcome σ α → Prop :=
  Outcome.Rel (fun c d => (c == d) = true) Eq

theorem Outcome.same_iff_aligned {α : Type} {o o' : Outcome σ α} :
    o.Same o' ↔ o.Aligned 0 o' := by
  constructor
  · exact fun h => h.mono (fun _ _ => beq_iff_aligned.mp) fun _ _ he => by simpa using he
  · exact fun h => h.mono (fun _ _ => beq_iff_aligned.mpr) fun _ _ he => by simpa using he

/-- A function on cursors has to respect their equality; the combinators do so by themselves. -/
def Grammar.NodeRespects {κ : Type} (interpret : κ → σ → Outcome σ (Value τ)) :
    Grammar τ κ → Prop
  | custom k => ∀ c d : σ, (c == d) = true → (interpret k c).Same (interpret k d)
  | _ => True

theorem Grammar.NodeRespects.inStep {κ : Type} {interpret : κ → σ → Outcome σ (Value τ)}
    {g : Grammar τ κ} (hg : NodeRespects interpret g) : NodeInStep 0 interpret interpret g := by
  cases g with
  | custom k =>
      refine Parser.inStep_ofFunction fun c d h => ?_
      exact Outcome.same_iff_aligned.mp (hg c d (beq_iff_aligned.mpr h))
  | spanned g => exact rfl
  | _ => trivial

section Routines

variable [Token τ]

/-- The routines that read on respect the equality of cursors: they see where a cursor is and what
can be read there. Those that go back to the source do not. -/
theorem Routine.same_of_beq {r : Routine} (hr : r.readsOn = true) {c d : σ}
    (h : (c == d) = true) : (r.run c : Outcome σ (Value τ)).Same (r.run d) := by
  have hpos : Cursor.position c = Cursor.position d := ((LawfulCursorBEq.beq_iff c d).mp h).1
  have hnext := (beq_iff_aligned.mp h).next
  cases r with
  | rewind | jump => cases hr
  | fail text =>
      simp only [run, hpos]
      exact .failure rfl
  | failAt text n => exact .failure rfl
  | position =>
      simp only [run, hpos]
      exact .success h
  | atEnd =>
      have hend : isAtEnd c = isAtEnd d := by
        unfold isAtEnd
        rcases hnext with ⟨hc, hd⟩ | ⟨t, c', d', hc, hd, _⟩
        · rw [hc, hd]
        · rw [hc, hd]
          rfl
      simp only [run, hend]
      exact .success h
  | peek =>
      -- The cursor that comes out is the one that went in, not the one behind the token.
      simp only [run]
      rcases hnext with ⟨hc, hd⟩ | ⟨t, c', d', hc, hd, _⟩ <;> rw [hc, hd] <;> exact .success h
  | number =>
      simp only [run, hpos]
      rcases hnext with ⟨hc, hd⟩ | ⟨t, c', d', hc, hd, h'⟩ <;> rw [hc, hd]
      · exact .failure rfl
      · cases hint : Token.asInt? t with
        | none =>
            simp only [hint]
            exact .failure rfl
        | some n =>
            simp only [hint]
            exact .success (beq_iff_aligned.mpr h')
  | pair =>
      simp only [run, hpos]
      rcases hnext with ⟨hc, hd⟩ | ⟨a, c', d', hc, hd, h'⟩ <;> rw [hc, hd]
      · exact .failure rfl
      · have hpos' : Cursor.position c' = Cursor.position d' := by
          rw [h'.position_eq, Nat.zero_add]
        simp only [hpos']
        rcases h'.next with ⟨hc, hd⟩ | ⟨b, c'', d'', hc, hd, h''⟩ <;> rw [hc, hd]
        · exact .failure rfl
        · exact .success (beq_iff_aligned.mpr h'')

theorem Grammar.everywhere_nodeRespects {κ : Type} {routine : κ → Routine}
    (h : ∀ k, (routine k).readsOn = true) (rules : Rules τ κ) (g : Grammar τ κ) :
    Everywhere rules (NodeRespects fun k => ((routine k).run : σ → Outcome σ (Value τ))) g := by
  intro node _
  cases node with
  | custom k => exact fun _ _ => Routine.same_of_beq (h k)
  | _ => trivial

end Routines

variable [Describe τ] [BEq τ]

/-- **The equality of cursors is observational.** Cursors are equal exactly if they are at the same
position and reading them to the end yields the same tokens. On equal cursors, a grammar whose
functions on cursors respect their equality comes back alike or not at all: both times with the same
value and equal cursors behind it, or both times with the same error. -/
theorem cursor_equality_observational (c d : σ) :
    ((c == d) = true ↔ position c = position d ∧ ∃ ts, Yields c ts ∧ Yields d ts)
      ∧ ∀ (κ : Type) (interpret : κ → σ → Outcome σ (Value τ)) (rules : Rules τ κ)
          (g : Grammar τ κ), Grammar.Everywhere rules (Grammar.NodeRespects interpret) g →
          (c == d) = true →
          Parser.ReturnAlike Outcome.Same (g.parser interpret rules) c
            (g.parser interpret rules) d := by
  refine ⟨beq_iff_yields, fun κ interpret rules g hg hcd => ?_⟩
  have hnodes : Grammar.Everywhere rules (Grammar.NodeInStep 0 interpret interpret) g :=
    fun k hk => (hg k hk).inStep
  have halike := (Grammar.parser_inStep hnodes).returnAlike (beq_iff_aligned.mp hcd)
  exact halike.mono fun _ _ => Outcome.same_iff_aligned.mpr

end Equality

/-- Balanced parentheses with their span, then two tokens by a routine. -/
def spannedNest : Grammar Char Unit := .both (.spanned (.rule "nest")) (.custom ())

/-- Equal cursors with different pasts: behind characters of different lengths in bytes, where the
grammar succeeds, and at the ends of different sources, of which one is a `valid` cursor behind the
last token, where it fails. -/
theorem cursor_equality_observational_nest :
    (∃ rest : TextCursor,
      (spannedNest.parser (fun _ => Routine.run .pair) (nestRules Unit)).Returns
        (advance 1 (TextCursor.start "x()ab"))
        (.success (.pair (.pair .unit (.span ⟨1, 3⟩)) (.pair (.element 'a') (.element 'b'))) rest)
      ∧ (advance 5 (TextCursor.start "é()ab") == rest) = true)
    ∧ (spannedNest.parser (fun _ => Routine.run .pair) (nestRules Unit)).Returns
        (TokenCursor.endOfInput #['a', 'b', 'c']) (.failure (.message "missing first" 3))
    ∧ ∃ ts : List Char, Yields (TokenCursor.valid #['x', '(', ')'] 7) ts
        ∧ Yields (TokenCursor.endOfInput #['a', 'b', 'c']) ts := by
  have htext : (advance 1 (TextCursor.start "é()ab")
      == advance 1 (TextCursor.start "x()ab")) = true := rfl
  have htokens : (TokenCursor.valid #['x', '(', ')'] 7
      == .endOfInput #['a', 'b', 'c']) = true := rfl
  refine ⟨?_, ?_, ?_⟩
  · have halike := (cursor_equality_observational _ _).2 Unit (fun _ => Routine.run .pair)
      (nestRules Unit) spannedNest (Grammar.everywhere_nodeRespects (fun _ => rfl) _ _) htext
    obtain ⟨o, ho, hsame⟩ := halike.1 _ ⟨5, rfl⟩
    cases hsame with
    | success hrest => exact ⟨_, ho, hrest⟩
  · have halike := (cursor_equality_observational _ _).2 Unit (fun _ => Routine.run .pair)
      (nestRules Unit) spannedNest (Grammar.everywhere_nodeRespects (fun _ => rfl) _ _) htokens
    obtain ⟨o, ho, hsame⟩ := halike.1 _ ⟨5, rfl⟩
    cases hsame with
    | failure he =>
        subst he
        exact ho
  · exact ((cursor_equality_observational _ _).1.mp htokens).2

end ParserKit

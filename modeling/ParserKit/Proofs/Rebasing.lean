import ParserKit.Proofs.Diagnostics
import ParserKit.Proofs.Lockstep

set_option autoImplicit false

/-! # The same tokens elsewhere

What a grammar makes of a sequence of tokens does not depend on how the sequence is kept. It may be
a text, of which a cursor knows an offset in bytes and a position in characters, or an array, of
which it knows an index or that it is at the end: a grammar has the same outcomes on both
(`text_and_tokens_agree`). And it may be the rest of a source that has been read in part, or a
source of its own: a grammar without spans has the same outcomes on both, with all positions counted
from the respective start (`parse_rebased`).

Both are cases of cursors that are aligned, in the second one by a shift.
-/

namespace ParserKit

open Cursor LawfulCursor SourceCursor

section Alignment

variable {σ σ' τ φ φ' : Type} [SourceCursor σ τ φ] [LawfulCursor σ τ] [TokenSource φ τ]
  [LawfulSource σ τ φ] [SourceCursor σ' τ φ'] [LawfulCursor σ' τ] [TokenSource φ' τ]
  [LawfulSource σ' τ φ']

/-- Sources with the same tokens have aligned starts, of whatever kind they are. -/
theorem aligned_start [LawfulStart σ τ φ] [LawfulStart σ' τ φ'] {s : φ} {s' : φ'}
    (h : tokens s = tokens s') : Aligned 0 (start s : σ) (start s' : σ') where
  upcoming_eq := by rw [LawfulStart.upcoming_start, LawfulStart.upcoming_start, h]
  position_eq := by rw [LawfulStart.position_start, LawfulStart.position_start]

/-- What is left at a cursor can be made a source of its own. The start of that source is aligned
with the cursor, by the cursor's position. -/
theorem aligned_rebase [LawfulStart σ τ φ] (c : σ) :
    Aligned (position c) c (start (remaining c) : σ) where
  upcoming_eq := by rw [LawfulStart.upcoming_start, LawfulSource.upcoming_eq_tokens]
  position_eq := by rw [LawfulStart.position_start, Nat.add_zero]

end Alignment

/-! ## Texts and tokens -/

/-- A composed grammar is in step with itself on every two kinds of cursors. -/
theorem Grammar.Composed.nodeInStep {σ σ' τ κ : Type} [Cursor σ τ] [LawfulCursor σ τ]
    [Cursor σ' τ] [LawfulCursor σ' τ] {interpret : κ → σ → Outcome σ (Value τ)}
    {interpret' : κ → σ' → Outcome σ' (Value τ)} {rules : Rules τ κ} {g : Grammar τ κ}
    (hg : Composed rules g) : Everywhere rules (NodeInStep 0 interpret interpret') g := by
  intro k hk
  have hcombinator := hg k hk
  cases k with
  | custom k => exact hcombinator.elim
  | spanned g => exact rfl
  | _ => trivial

/-- **The two kinds of cursors agree.** A composed grammar over characters, run on a text of which
the first `i` characters have been read, comes back exactly if it does on the array of the same
characters of which the first `i` have been read. Both times it succeeds with the same value, at the
same position and with the same characters left, or both times it fails with the same error. -/
theorem text_and_tokens_agree {κ : Type} (onText : κ → TextCursor → Outcome TextCursor (Value Char))
    (onTokens : κ → TokenCursor Char → Outcome (TokenCursor Char) (Value Char))
    (rules : Rules Char κ) (g : Grammar Char κ) (hg : Grammar.Composed rules g) (s : String)
    (i : Nat) :
    Parser.ReturnAlike
      (Outcome.Rel (fun (c : TextCursor) (d : TokenCursor Char) =>
        c.position = d.position ∧ c.remaining.toList = d.remaining.toList) Eq)
      (g.parser onText rules) (advance i (TextCursor.start s))
      (g.parser onTokens rules) (advance i (TokenCursor.start s.toList.toArray)) := by
  have hstart : Aligned 0 (start s : TextCursor) (start s.toList.toArray : TokenCursor Char) :=
    aligned_start rfl
  have hnodes : Grammar.Everywhere rules (Grammar.NodeInStep 0 onText onTokens) g := hg.nodeInStep
  have halike := (Grammar.parser_inStep hnodes).returnAlike (hstart.advance i)
  refine halike.mono fun o o' h => h.mono (fun c d hcd => ?_) fun e e' he => ?_
  · exact ⟨hcd.position_eq.trans (Nat.zero_add _), hcd.upcoming_eq⟩
  · rw [he, ParseError.shift_zero]

/-- Items with commas between them, each with its span. -/
def commaItems : Grammar Char Empty :=
  .separatedList (.spanned (.satisfy "item" (· != ','))) (.token ',')

/-- The two kinds of cursors on characters of one, two and three bytes. Behind the first comma there
are two items and a comma that is given back; at the end there is none. -/
theorem text_and_tokens_agree_items :
    (∃ rest : TokenCursor Char,
      (commaItems.parser Empty.elim []).Returns
        (advance 2 (TokenCursor.start "é,中,x,".toList.toArray))
        (.success (.list [.pair (.element '中') (.span ⟨2, 3⟩),
          .pair (.element 'x') (.span ⟨4, 5⟩)]) rest)
      ∧ rest.position = 5 ∧ rest.remaining.toList = [','])
    ∧ (commaItems.parser Empty.elim []).Returns
        (advance 6 (TokenCursor.start "é,中,x,".toList.toArray))
        (.failure (.endOfInput "item" 6)) := by
  have hcomposed := Grammar.composed_of_empty [] commaItems
  constructor
  · have halike := text_and_tokens_agree Empty.elim Empty.elim [] commaItems hcomposed "é,中,x," 2
    obtain ⟨o, ho, hrel⟩ := halike.1 (.success (.list [.pair (.element '中') (.span ⟨2, 3⟩),
      .pair (.element 'x') (.span ⟨4, 5⟩)]) (advance 5 (TextCursor.start "é,中,x,"))) ⟨4, rfl⟩
    cases hrel with
    | success hrest => exact ⟨_, ho, hrest.1.symm, hrest.2.symm⟩
  · have halike := text_and_tokens_agree Empty.elim Empty.elim [] commaItems hcomposed "é,中,x," 6
    obtain ⟨o, ho, hrel⟩ := halike.1 (.failure (.endOfInput "item" 6)) ⟨4, rfl⟩
    cases hrel with
    | failure he =>
        subst he
        exact ho

/-! ## A source and its rest -/

/-- Neither a function on cursors of the caller's own nor a span, which holds positions. -/
def Grammar.isRebasable {τ κ : Type} : Grammar τ κ → Bool
  | custom _ | spanned _ => false
  | _ => true

/-- A node of this kind is in step with itself by every shift. -/
theorem Grammar.nodeInStep_of_isRebasable {σ τ κ : Type} [Cursor σ τ] [LawfulCursor σ τ]
    {shift : Nat} {interpret : κ → σ → Outcome σ (Value τ)} {g : Grammar τ κ}
    (hg : g.isRebasable = true) : NodeInStep shift interpret interpret g := by
  cases g with
  | custom k => cases hg
  | spanned g => cases hg
  | _ => trivial

/-- **A source and its rest.** Let a grammar have no spans and no functions on cursors. Run on a
cursor, it comes back exactly if it does on a fresh cursor over what is left at that cursor. Both
times it succeeds with the same value and leaves the same, at a position that is further by that of
the cursor; or both times it fails with the same error, but for its position, which is further by
that of the cursor. -/
theorem parse_rebased {σ τ φ κ : Type} [SourceCursor σ τ φ] [LawfulCursor σ τ] [TokenSource φ τ]
    [LawfulTokenSource φ τ] [LawfulSource σ τ φ] [LawfulStart σ τ φ] [Describe τ] [BEq τ]
    (interpret : κ → σ → Outcome σ (Value τ)) (rules : Rules τ κ) (g : Grammar τ κ)
    (hg : Grammar.Everywhere rules (fun k => k.isRebasable = true) g) (c : σ) :
    Parser.ReturnAlike
      (Outcome.Rel (fun rest rest₀ => remaining rest = remaining rest₀
          ∧ position rest = position c + position rest₀)
        fun e e₀ => e = e₀.shift (position c))
      (g.parser interpret rules) c (g.parser interpret rules) (start (remaining c)) := by
  have hnodes : Grammar.Everywhere rules
      (Grammar.NodeInStep (position c) interpret interpret) g :=
    fun k hk => Grammar.nodeInStep_of_isRebasable (hg k hk)
  have halike := (Grammar.parser_inStep hnodes).returnAlike (aligned_rebase c)
  refine halike.mono fun o o₀ h => h.mono (fun rest rest₀ hrest => ?_) fun _ _ he => he
  exact ⟨hrest.remaining_eq, hrest.position_eq⟩

/-- Digits in parentheses, in the middle of a text behind a character of two bytes, and in the
middle of an array: the value and the error of the rest on its own come from the middle as well, the
error further by the position there. -/
theorem parse_rebased_digits :
    (∃ rest : TextCursor,
      ((.rule "digit" : Grammar Char Empty).parser Empty.elim (digitRules Empty)).Returns
        (advance 2 (TextCursor.start "xé((1))y")) (.success (.element '1') rest)
      ∧ rest.remaining = "y" ∧ rest.position = 7)
    ∧ ((.rule "digit" : Grammar Char Empty).parser Empty.elim (digitRules Empty)).Returns
        (TokenCursor.valid #['x', '(', '(', '1', ']'] 1) (.failure (.message "not closed" 4)) := by
  have hnodes : Grammar.Everywhere (digitRules Empty) (fun k => k.isRebasable = true)
      (.rule "digit") := Grammar.everywhere_of_all rfl rfl
  constructor
  · have halike := parse_rebased Empty.elim (digitRules Empty) (.rule "digit") hnodes
      (advance 2 (TextCursor.start "xé((1))y"))
    obtain ⟨o, ho, hrel⟩ := halike.2
      (.success (.element '1') (advance 5 (TextCursor.start "((1))y"))) ⟨4, rfl⟩
    cases hrel with
    | success hrest => exact ⟨_, ho, hrest⟩
  · have halike := parse_rebased Empty.elim (digitRules Empty) (.rule "digit") hnodes
      (TokenCursor.valid #['x', '(', '(', '1', ']'] 1)
    obtain ⟨o, ho, hrel⟩ := halike.2 (.failure (.message "not closed" 3)) ⟨4, rfl⟩
    cases hrel with
    | failure he =>
        subst he
        exact ho

end ParserKit

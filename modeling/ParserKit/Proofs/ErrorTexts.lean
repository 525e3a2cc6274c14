import ParserKit.ParseError

set_option autoImplicit false

/-! # What the text of an error tells

The text of an error ends with its position, and what stands before it is free: an expectation, a
description or a message may itself speak of positions, and errors of different kinds may have the
same text. The position can be told from it all the same. It is the number at the end of the text
(`ParseError.finalNumber_render`), since a blank separates its digits from all digits before them.
So errors with the same text have the same position and the same reason, and only the kind of error
remains open (`ParseError.render_eq_iff`).
-/

namespace ParserKit.ParseError

/-- The number at the end of a text, which is written by the digits behind its last character that
is none. -/
def finalNumber (text : String) : Nat :=
  Nat.ofDigitChars 10 (text.toList.reverse.takeWhile Char.isDigit).reverse 0

theorem finalNumber_append {c : Char} (hc : c.isDigit = false) (text : String) (n : Nat) :
    finalNumber (text ++ String.singleton c ++ Nat.repr n) = n := by
  have hdigits : ∀ d ∈ (Nat.toDigits 10 n).reverse, d.isDigit = true := by
    intro d hd
    exact Nat.isDigit_of_mem_toDigits (by decide) (by decide) (List.mem_reverse.mp hd)
  have hreverse : (text ++ String.singleton c ++ Nat.repr n).toList.reverse
      = (Nat.toDigits 10 n).reverse ++ c :: text.toList.reverse := by
    simp [Nat.toList_repr]
  have hrun : (text ++ String.singleton c ++ Nat.repr n).toList.reverse.takeWhile Char.isDigit
      = (Nat.toDigits 10 n).reverse := by
    rw [hreverse, List.takeWhile_append_of_pos hdigits, List.takeWhile_cons_of_neg (by simp [hc]),
      List.append_nil]
  rw [finalNumber, hrun, List.reverse_reverse, Nat.ofDigitChars_ten_toDigits]

/-- The number at the end of the text of an error is its position. -/
theorem finalNumber_render (e : ParseError) : finalNumber e.render = e.position := by
  have hblank : " at position " = " at position" ++ String.singleton ' ' := rfl
  rw [render, hblank, ← String.append_assoc]
  exact finalNumber_append (by decide) _ _

/-- Errors have the same text exactly if they have the same reason and the same position. -/
theorem render_eq_iff {e e' : ParseError} :
    e.render = e'.render ↔ e.reason = e'.reason ∧ e.position = e'.position := by
  constructor
  · intro h
    have hposition : e.position = e'.position := by
      rw [← finalNumber_render, h, finalNumber_render]
    rw [render, render, hposition, String.append_left_inj, String.append_left_inj] at h
    exact ⟨h, hposition⟩
  · rintro ⟨hreason, hposition⟩
    rw [render, render, hreason, hposition]

/-- **The text of an error tells its position.** Errors with the same text have the same position,
of whatever kinds they are and whatever their own texts say. If both are messages, they are the same
error. -/
theorem render_tells_position (e e' : ParseError) (h : e.render = e'.render) :
    e.position = e'.position
      ∧ ∀ (text text' : String) (n n' : Nat), e = .message text n → e' = .message text' n' →
          e = e' := by
  obtain ⟨hreason, hposition⟩ := render_eq_iff.mp h
  refine ⟨hposition, ?_⟩
  rintro text text' n n' rfl rfl
  rw [message.injEq]
  exact ⟨hreason, hposition⟩

/-- A message with the words of an unexpected token whose description speaks of a position, and the
same message put together from its parts. -/
theorem render_tells_position_imitated :
    let e : ParseError := .unexpected "x" "y at position 7" 3
    let e' : ParseError := .message "expected x, found y at position 7" 3
    let e'' : ParseError := .message ("expected x, found " ++ "y at position 7") 3
    e.render = e'.render ∧ e ≠ e' ∧ e.position = e'.position
      ∧ e''.render = e'.render ∧ e'' = e' := by
  intro e e' e''
  have htext : e.render = e'.render := by decide
  have hmessage : e''.render = e'.render := by decide
  exact ⟨htext, by decide, (render_tells_position e e' htext).1, hmessage,
    (render_tells_position e'' e' hmessage).2 _ _ _ _ rfl rfl⟩

end ParserKit.ParseError

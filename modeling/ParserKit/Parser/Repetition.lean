import ParserKit.Parser.Choice

set_option autoImplicit false

/-! # Repetition

`oneOrMore p` collects the values of `p` until `p` fails or stops moving: a round that ends at the
position where it started contributes its value and is the last one. So repetition ends on every
input, even if `p` succeeds without reading. `separatedList` does the same for rounds of a separator
and an item; a separator without an item behind it is not read.

Both are loops with an accumulator and a bound on the number of rounds.
-/

namespace ParserKit.Parser

variable {σ τ α β : Type} [Cursor σ τ]

/-- The rounds of a repetition from `c` on, after `collected` (last value first) and a round that
started at position `previous`. -/
def repeatFrom (step : σ → Run σ α) : Nat → Nat → σ → List α → Run σ (List α)
  | 0, _, _, _ => Run.exhausted
  | rounds + 1, previous, c, collected =>
    -- The round before did not move, and would not move again.
    if Cursor.position c = previous then Run.success collected.reverse c
    else
      match step c with
      | .ok (.success v rest) => repeatFrom step rounds (Cursor.position c) rest (v :: collected)
      | .ok (.failure _) => Run.success collected.reverse c
      | .error interruption => .error interruption

/-- The rounds of a separated list from `c` on, after `collected` (last value first). -/
def repeatSeparated (separator : σ → Run σ β) (item : σ → Run σ α) :
    Nat → σ → List α → Run σ (List α)
  | 0, _, _ => Run.exhausted
  | rounds + 1, c, collected =>
    match separator c with
    | .error interruption => .error interruption
    | .ok (.failure _) => Run.success collected.reverse c
    | .ok (.success _ afterSeparator) =>
      match item afterSeparator with
      | .error interruption => .error interruption
      -- The list ends at `c`: the separator belongs to what follows.
      | .ok (.failure _) => Run.success collected.reverse c
      | .ok (.success v rest) =>
        if Cursor.position rest = Cursor.position c then Run.success (v :: collected).reverse rest
        else repeatSeparated separator item rounds rest (v :: collected)

/-- More rounds, or a step that is known better, can only bring an exhausted repetition further. -/
theorem repeatFrom_approx {step step' : σ → Run σ α}
    (hstep : ∀ c, Run.Approx (step c) (step' c)) {rounds rounds' : Nat} (h : rounds ≤ rounds')
    (previous : Nat) (c : σ) (collected : List α) :
    Run.Approx (repeatFrom step rounds previous c collected)
      (repeatFrom step' rounds' previous c collected) := by
  induction rounds generalizing rounds' previous c collected with
  | zero => exact Or.inl rfl
  | succ rounds ih =>
    obtain ⟨rounds', rfl⟩ : ∃ k, rounds' = k + 1 := ⟨rounds' - 1, by omega⟩
    -- The two loops agree up to the first step that is exhausted in the first one.
    simp only [repeatFrom]
    split
    · exact .refl _
    · rcases hstep c with hc | hc
      · rw [hc]
        exact Or.inl rfl
      · rw [← hc]
        match step c with
        | .ok (.success v rest) => exact ih (by omega) _ _ _
        | .ok (.failure _) => exact .refl _
        | .error _ => exact .refl _

/-- More rounds, or parts that are known better, can only bring an exhausted list further. -/
theorem repeatSeparated_approx {separator separator' : σ → Run σ β} {item item' : σ → Run σ α}
    (hseparator : ∀ c, Run.Approx (separator c) (separator' c))
    (hitem : ∀ c, Run.Approx (item c) (item' c)) {rounds rounds' : Nat} (h : rounds ≤ rounds')
    (c : σ) (collected : List α) :
    Run.Approx (repeatSeparated separator item rounds c collected)
      (repeatSeparated separator' item' rounds' c collected) := by
  induction rounds generalizing rounds' c collected with
  | zero => exact Or.inl rfl
  | succ rounds ih =>
    obtain ⟨rounds', rfl⟩ : ∃ k, rounds' = k + 1 := ⟨rounds' - 1, by omega⟩
    simp only [repeatSeparated]
    rcases hseparator c with hc | hc
    · rw [hc]
      exact Or.inl rfl
    · rw [← hc]
      match separator c with
      | .ok (.failure _) => exact .refl _
      | .error _ => exact .refl _
      | .ok (.success _ afterSeparator) =>
        rcases hitem afterSeparator with hi | hi
        · simp only [hi]
          exact Or.inl rfl
        · simp only [← hi]
          match item afterSeparator with
          | .ok (.failure _) => exact .refl _
          | .error _ => exact .refl _
          | .ok (.success v rest) =>
            simp only
            split
            · exact .refl _
            · exact ih (by omega) _ _

/-- The values of `p`, run once and then again and again until it fails or stops moving. -/
def oneOrMore (p : Parser σ α) : Parser σ (List α) where
  run n c := (p.run n c).andThen fun v rest =>
    repeatFrom (p.run n) n (Cursor.position c) rest [v]
  approx_succ n c := (p.approx_succ n c).andThen fun _ _ =>
    repeatFrom_approx (p.approx_succ n) (Nat.le_succ n) _ _ _

/-- Like `oneOrMore`, but no value at all if `p` fails at once. -/
def zeroOrMore (p : Parser σ α) : Parser σ (List α) := p.oneOrMore.orElse emptyList

/-- The values of `item`, with `separator` between neighbours. -/
def separatedList (item : Parser σ α) (separator : Parser σ β) : Parser σ (List α) where
  run n c := (item.run n c).andThen fun v rest =>
    repeatSeparated (separator.run n) (item.run n) n rest [v]
  approx_succ n c := (item.approx_succ n c).andThen fun _ _ =>
    repeatSeparated_approx (separator.approx_succ n) (item.approx_succ n) (Nat.le_succ n) _ _

namespace Below

variable {n : Nat}

theorem oneOrMore {p p' : Parser σ α} (hp : Below n p p') : Below n p.oneOrMore p'.oneOrMore :=
  fun c => (hp c).andThen fun _ _ => repeatFrom_approx hp (Nat.le_refl n) _ _ _

theorem zeroOrMore {p p' : Parser σ α} (hp : Below n p p') : Below n p.zeroOrMore p'.zeroOrMore :=
  hp.oneOrMore.orElse (.refl n _)

theorem separatedList {p p' : Parser σ α} {q q' : Parser σ β} (hp : Below n p p')
    (hq : Below n q q') : Below n (p.separatedList q) (p'.separatedList q') := fun c =>
  (hp c).andThen fun _ _ => repeatSeparated_approx hq hp (Nat.le_refl n) _ _

end Below

end ParserKit.Parser

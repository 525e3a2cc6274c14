import ParserKit.Proofs.Returns

set_option autoImplicit false

/-! # The rounds of a repetition

The two loops collect values in an accumulator and stop for one of several reasons. `Rounds` and
`SeparatedRounds` say the same rule by rule: which rounds there are, what each of them adds, and why
the last one was the last. A repetition returns exactly what its rounds give (`oneOrMore_success`,
`separatedList_success`), so that every fact about it can be proved by induction on the rounds.
-/

namespace ParserKit.Parser

variable {σ τ α β : Type} [Cursor σ τ]

/-! ## Repetition of one parser -/

/-- From `c`, behind a round that had started at position `previous`, the further rounds of `p`
yield the values `vs` and end at `rest`. -/
inductive Rounds (p : Parser σ α) : Nat → σ → List α → σ → Prop where
  /-- The round before did not move: it was the last one. -/
  | still {previous : Nat} {c : σ} (h : Cursor.position c = previous) : Rounds p previous c [] c
  /-- `p` fails: there is no further round. -/
  | refused {previous : Nat} {c : σ} {e : ParseError} (h : Cursor.position c ≠ previous)
      (hp : p.Returns c (.failure e)) : Rounds p previous c [] c
  /-- `p` succeeds: its value is the first of the further ones. -/
  | again {previous : Nat} {c mid rest : σ} {v : α} {vs : List α}
      (h : Cursor.position c ≠ previous) (hp : p.Returns c (.success v mid))
      (hrest : Rounds p (Cursor.position c) mid vs rest) : Rounds p previous c (v :: vs) rest

/-- What a loop within a budget gives is given by rounds. -/
theorem rounds_of_repeatFrom {p : Parser σ α} {n rounds previous : Nat} {c : σ}
    {collected : List α} {o : Outcome σ (List α)}
    (h : repeatFrom (p.run n) rounds previous c collected = .ok o) :
    ∃ vs rest, Rounds p previous c vs rest ∧ o = .success (collected.reverse ++ vs) rest := by
  -- The accumulator grows and the start of the last round moves, so both are generalized.
  induction rounds generalizing previous c collected with
  | zero => cases h
  | succ rounds ih =>
      rw [repeatFrom] at h
      by_cases hpos : Cursor.position c = previous
      · rw [if_pos hpos] at h
        cases h
        exact ⟨[], c, .still hpos, by simp⟩
      · rw [if_neg hpos] at h
        cases hp : p.run n c with
        | error interruption =>
            rw [hp] at h
            cases h
        | ok first =>
            rw [hp] at h
            cases first with
            | failure e =>
                cases h
                exact ⟨[], c, .refused hpos ⟨n, hp⟩, by simp⟩
            | success v mid =>
                obtain ⟨vs, rest, hr, ho⟩ := ih h
                exact ⟨v :: vs, rest, .again hpos ⟨n, hp⟩ hr, by simp [ho]⟩

/-- Rounds are found by the loop within some budget. -/
theorem Rounds.repeatFrom {p : Parser σ α} {previous : Nat} {c rest : σ} {vs : List α}
    (h : Rounds p previous c vs rest) (collected : List α) :
    ∃ n, repeatFrom (p.run n) n previous c collected
      = .ok (.success (collected.reverse ++ vs) rest) := by
  induction h generalizing collected with
  | still hpos => exact ⟨1, by simp [Parser.repeatFrom, Run.success, hpos]⟩
  | refused hpos hp =>
      obtain ⟨n, hn⟩ := hp
      have hn' := p.run_of_le (Nat.le_succ n) hn
      exact ⟨n + 1, by simp [Parser.repeatFrom, Run.success, hpos, hn']⟩
  | @again previous c mid rest v vs hpos hp _ ih =>
      obtain ⟨n, hn⟩ := hp
      obtain ⟨m, hm⟩ := ih (v :: collected)
      -- One round more than the later rounds need, within a budget that is enough for this one.
      have hn' : p.run (max n m + 1) c = .ok (.success v mid) := p.run_of_le (by omega) hn
      have hm' := (repeatFrom_approx (p.approx_of_le (by omega : m ≤ max n m + 1))
        (by omega : m ≤ max n m) _ _ _).eq_ok hm
      refine ⟨max n m + 1, ?_⟩
      rw [Parser.repeatFrom, if_neg hpos, hn']
      simpa using hm'

@[simp] theorem oneOrMore_success {p : Parser σ α} {c rest : σ} {vs : List α} :
    p.oneOrMore.Returns c (.success vs rest) ↔
      ∃ v mid vs', p.Returns c (.success v mid) ∧ Rounds p (Cursor.position c) mid vs' rest
        ∧ vs = v :: vs' := by
  constructor
  · rintro ⟨n, hn⟩
    rcases Run.andThen_eq_ok.mp hn with ⟨v, mid, hp, hr⟩ | ⟨_, _, ⟨⟩⟩
    obtain ⟨vs', rest', hrounds, ho⟩ := rounds_of_repeatFrom hr
    cases ho
    exact ⟨v, mid, vs', ⟨n, hp⟩, hrounds, rfl⟩
  · rintro ⟨v, mid, vs', ⟨n, hp⟩, hrounds, rfl⟩
    obtain ⟨m, hm⟩ := hrounds.repeatFrom [v]
    have hp' := p.run_of_le (Nat.le_max_left n m) hp
    have hm' := (repeatFrom_approx (p.approx_of_le (Nat.le_max_right n m))
      (Nat.le_max_right n m) _ _ _).eq_ok hm
    exact ⟨max n m, Run.andThen_eq_ok.mpr (Or.inl ⟨v, mid, hp', hm'⟩)⟩

/-- A repetition fails exactly if its first round does. -/
@[simp] theorem oneOrMore_failure {p : Parser σ α} {c : σ} {e : ParseError} :
    p.oneOrMore.Returns c (.failure e) ↔ p.Returns c (.failure e) := by
  constructor
  · rintro ⟨n, hn⟩
    rcases Run.andThen_eq_ok.mp hn with ⟨v, mid, hp, hr⟩ | ⟨e', hp, ⟨⟩⟩
    · obtain ⟨_, _, _, ho⟩ := rounds_of_repeatFrom hr
      cases ho
    · exact ⟨n, hp⟩
  · rintro ⟨n, hn⟩
    exact ⟨n, Run.andThen_eq_ok.mpr (Or.inr ⟨e, hn, rfl⟩)⟩

@[simp] theorem zeroOrMore_success {p : Parser σ α} {c rest : σ} {vs : List α} :
    p.zeroOrMore.Returns c (.success vs rest) ↔
      p.oneOrMore.Returns c (.success vs rest)
        ∨ ∃ e, p.Returns c (.failure e) ∧ vs = [] ∧ rest = c := by
  simp [zeroOrMore]

@[simp] theorem zeroOrMore_failure {p : Parser σ α} {c : σ} {e : ParseError} :
    ¬ p.zeroOrMore.Returns c (.failure e) := by
  simp [zeroOrMore]

/-! ## Repetition with separators -/

/-- From `c` on, rounds of `separator` and `item` yield the values `vs` and end at `rest`. -/
inductive SeparatedRounds (separator : Parser σ β) (item : Parser σ α) :
    σ → List α → σ → Prop where
  /-- There is no separator. -/
  | noSeparator {c : σ} {e : ParseError} (hs : separator.Returns c (.failure e)) :
      SeparatedRounds separator item c [] c
  /-- There is a separator but no item behind it: the separator is given back. -/
  | noItem {c mid : σ} {s : β} {e : ParseError} (hs : separator.Returns c (.success s mid))
      (hi : item.Returns mid (.failure e)) : SeparatedRounds separator item c [] c
  /-- A round that does not move is the last one. -/
  | still {c mid rest : σ} {s : β} {v : α} (hs : separator.Returns c (.success s mid))
      (hi : item.Returns mid (.success v rest)) (h : Cursor.position rest = Cursor.position c) :
      SeparatedRounds separator item c [v] rest
  /-- A round that moves is followed by further ones. -/
  | again {c mid next rest : σ} {s : β} {v : α} {vs : List α}
      (hs : separator.Returns c (.success s mid)) (hi : item.Returns mid (.success v next))
      (h : Cursor.position next ≠ Cursor.position c)
      (hrest : SeparatedRounds separator item next vs rest) :
      SeparatedRounds separator item c (v :: vs) rest

/-- What a loop with separators within a budget gives is given by rounds. -/
theorem rounds_of_repeatSeparated {separator : Parser σ β} {item : Parser σ α} {n rounds : Nat}
    {c : σ} {collected : List α} {o : Outcome σ (List α)}
    (h : repeatSeparated (separator.run n) (item.run n) rounds c collected = .ok o) :
    ∃ vs rest, SeparatedRounds separator item c vs rest
      ∧ o = .success (collected.reverse ++ vs) rest := by
  induction rounds generalizing c collected with
  | zero => cases h
  | succ rounds ih =>
      rw [repeatSeparated] at h
      cases hs : separator.run n c with
      | error interruption =>
          rw [hs] at h
          cases h
      | ok first =>
          rw [hs] at h
          cases first with
          | failure e =>
              cases h
              exact ⟨[], c, .noSeparator ⟨n, hs⟩, by simp⟩
          | success s mid =>
              cases hi : item.run n mid with
              | error interruption =>
                  simp only [hi] at h
                  cases h
              | ok second =>
                  simp only [hi] at h
                  cases second with
                  | failure e =>
                      cases h
                      exact ⟨[], c, .noItem ⟨n, hs⟩ ⟨n, hi⟩, by simp⟩
                  | success v next =>
                      by_cases hpos : Cursor.position next = Cursor.position c
                      · simp only [hpos, if_true] at h
                        cases h
                        exact ⟨[v], next, .still ⟨n, hs⟩ ⟨n, hi⟩ hpos, by simp⟩
                      · simp only [hpos, if_false] at h
                        obtain ⟨vs, rest, hr, ho⟩ := ih h
                        exact ⟨v :: vs, rest, .again ⟨n, hs⟩ ⟨n, hi⟩ hpos hr, by simp [ho]⟩

/-- Rounds with separators are found by the loop within some budget. -/
theorem SeparatedRounds.repeatSeparated {separator : Parser σ β} {item : Parser σ α} {c rest : σ}
    {vs : List α} (h : SeparatedRounds separator item c vs rest) (collected : List α) :
    ∃ n, repeatSeparated (separator.run n) (item.run n) n c collected
      = .ok (.success (collected.reverse ++ vs) rest) := by
  induction h generalizing collected with
  | noSeparator hs =>
      obtain ⟨n, hn⟩ := hs
      have hn' := separator.run_of_le (Nat.le_succ n) hn
      exact ⟨n + 1, by simp [Parser.repeatSeparated, Run.success, hn']⟩
  | noItem hs hi =>
      -- One budget for both parts, and one round to run them in.
      obtain ⟨n, hn⟩ := hs
      obtain ⟨m, hm⟩ := hi
      have hn' := separator.run_of_le (by omega : n ≤ max n m + 1) hn
      have hm' := item.run_of_le (by omega : m ≤ max n m + 1) hm
      exact ⟨max n m + 1, by simp [Parser.repeatSeparated, Run.success, hn', hm']⟩
  | still hs hi hpos =>
      obtain ⟨n, hn⟩ := hs
      obtain ⟨m, hm⟩ := hi
      have hn' := separator.run_of_le (by omega : n ≤ max n m + 1) hn
      have hm' := item.run_of_le (by omega : m ≤ max n m + 1) hm
      exact ⟨max n m + 1, by simp [Parser.repeatSeparated, Run.success, hn', hm', hpos]⟩
  | @again c mid next rest s v vs hs hi hpos _ ih =>
      obtain ⟨n, hn⟩ := hs
      obtain ⟨m, hm⟩ := hi
      obtain ⟨k, hk⟩ := ih (v :: collected)
      -- The later rounds keep theirs, and this one is added.
      have hn' := separator.run_of_le (by omega : n ≤ max (max n m) k + 1) hn
      have hm' := item.run_of_le (by omega : m ≤ max (max n m) k + 1) hm
      have hk' := (repeatSeparated_approx
        (separator.approx_of_le (by omega : k ≤ max (max n m) k + 1))
        (item.approx_of_le (by omega : k ≤ max (max n m) k + 1))
        (Nat.le_max_right (max n m) k) _ _).eq_ok hk
      refine ⟨max (max n m) k + 1, ?_⟩
      rw [Parser.repeatSeparated, Run.success, hn']
      simp only [hm', hpos, if_false]
      simpa using hk'

@[simp] theorem separatedList_success {item : Parser σ α} {separator : Parser σ β} {c rest : σ}
    {vs : List α} :
    (item.separatedList separator).Returns c (.success vs rest) ↔
      ∃ v mid vs', item.Returns c (.success v mid) ∧ SeparatedRounds separator item mid vs' rest
        ∧ vs = v :: vs' := by
  constructor
  · rintro ⟨n, hn⟩
    rcases Run.andThen_eq_ok.mp hn with ⟨v, mid, hp, hr⟩ | ⟨_, _, ⟨⟩⟩
    obtain ⟨vs', rest', hrounds, ho⟩ := rounds_of_repeatSeparated hr
    cases ho
    exact ⟨v, mid, vs', ⟨n, hp⟩, hrounds, rfl⟩
  · rintro ⟨v, mid, vs', ⟨n, hp⟩, hrounds, rfl⟩
    obtain ⟨m, hm⟩ := hrounds.repeatSeparated [v]
    have hp' := item.run_of_le (Nat.le_max_left n m) hp
    have hm' := (repeatSeparated_approx (separator.approx_of_le (Nat.le_max_right n m))
      (item.approx_of_le (Nat.le_max_right n m)) (Nat.le_max_right n m) _ _).eq_ok hm
    exact ⟨max n m, Run.andThen_eq_ok.mpr (Or.inl ⟨v, mid, hp', hm'⟩)⟩

/-- A separated list fails exactly if its first item does. -/
@[simp] theorem separatedList_failure {item : Parser σ α} {separator : Parser σ β} {c : σ}
    {e : ParseError} :
    (item.separatedList separator).Returns c (.failure e) ↔ item.Returns c (.failure e) := by
  constructor
  · rintro ⟨n, hn⟩
    rcases Run.andThen_eq_ok.mp hn with ⟨v, mid, hp, hr⟩ | ⟨e', hp, ⟨⟩⟩
    · obtain ⟨_, _, _, ho⟩ := rounds_of_repeatSeparated hr
      cases ho
    · exact ⟨n, hp⟩
  · rintro ⟨n, hn⟩
    exact ⟨n, Run.andThen_eq_ok.mpr (Or.inr ⟨e, hn, rfl⟩)⟩

end ParserKit.Parser

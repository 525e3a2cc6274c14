import ParserKit.Cursor.Text
import ParserKit.Cursor.Tokens

set_option autoImplicit false

/-! # Reading from a cursor

`Reads c ts rest` says that `rest` is the cursor behind `c` when the tokens `ts` have been read one
after the other. A cursor's position counts what was read, so between two cursors with the same
position nothing was read and they are the same cursor.

`LawfulSource` ties a cursor to the sequence of tokens of its source: what is still to come is that
sequence without as many tokens as the position says. Text cursors and token cursors are of that
kind, in every state that they can have.
-/

namespace ParserKit

/-! ## Reading several tokens -/

section Reads

variable {σ τ : Type} [Cursor σ τ]

/-- Reading the tokens `ts` one after the other leads from one cursor to another. -/
inductive Reads : σ → List τ → σ → Prop where
  | nil (c : σ) : Reads c [] c
  | cons {c mid rest : σ} {t : τ} {ts : List τ} (h : Cursor.next? c = some (t, mid))
      (hrest : Reads mid ts rest) : Reads c (t :: ts) rest

namespace Reads

theorem append {c mid rest : σ} {ts us : List τ} (h : Reads c ts mid) (h' : Reads mid us rest) :
    Reads c (ts ++ us) rest := by
  induction h with
  | nil c => exact h'
  | cons hnext _ ih => exact .cons hnext (ih h')

variable [LawfulCursor σ τ]

/-- What was to come is what was read and what is still to come. -/
theorem upcoming_eq {c rest : σ} {ts : List τ} (h : Reads c ts rest) :
    LawfulCursor.upcoming c = ts ++ LawfulCursor.upcoming rest := by
  induction h with
  | nil c => rfl
  | cons hnext _ ih => rw [LawfulCursor.upcoming_eq_cons hnext, ih, List.cons_append]

/-- Each token read moves the position by one. -/
theorem position_eq {c rest : σ} {ts : List τ} (h : Reads c ts rest) :
    Cursor.position rest = Cursor.position c + ts.length := by
  induction h with
  | nil c => rfl
  | cons hnext _ ih =>
      rw [ih, LawfulCursor.position_next hnext, List.length_cons]
      omega

theorem position_le {c rest : σ} {ts : List τ} (h : Reads c ts rest) :
    Cursor.position c ≤ Cursor.position rest := by
  rw [h.position_eq]
  exact Nat.le_add_right _ _

/-- If the position has not changed, the cursor has not either. -/
theorem eq_of_position_le {c rest : σ} {ts : List τ} (h : Reads c ts rest)
    (hpos : Cursor.position rest ≤ Cursor.position c) : rest = c := by
  cases h with
  | nil => rfl
  | cons hnext hrest =>
      have hmove := LawfulCursor.position_next hnext
      have hle := hrest.position_le
      omega

end Reads

/-- Reading some tokens leads from `c` to `rest`. -/
def Reaches (c rest : σ) : Prop := ∃ ts : List τ, Reads c ts rest

namespace Reaches

theorem refl (c : σ) : Reaches c c := ⟨[], .nil c⟩

theorem trans {c mid rest : σ} (h : Reaches c mid) (h' : Reaches mid rest) : Reaches c rest := by
  obtain ⟨ts, hts⟩ := h
  obtain ⟨us, hus⟩ := h'
  exact ⟨ts ++ us, hts.append hus⟩

theorem next {c rest : σ} {t : τ} (h : Cursor.next? c = some (t, rest)) : Reaches c rest :=
  ⟨[t], .cons h (.nil rest)⟩

variable [LawfulCursor σ τ]

theorem position_le {c rest : σ} (h : Reaches c rest) :
    Cursor.position c ≤ Cursor.position rest := by
  obtain ⟨ts, hts⟩ := h
  exact hts.position_le

/-- A cursor that is reached without moving is the same cursor. -/
theorem eq_of_position_le {c rest : σ} (h : Reaches c rest)
    (hpos : Cursor.position rest ≤ Cursor.position c) : rest = c := by
  obtain ⟨ts, hts⟩ := h
  exact hts.eq_of_position_le hpos

/-- The position and the number of tokens to come add up to the same number along the way. -/
theorem position_add_length {c rest : σ} (h : Reaches c rest) :
    Cursor.position rest + (LawfulCursor.upcoming rest).length
      = Cursor.position c + (LawfulCursor.upcoming c).length := by
  obtain ⟨ts, hts⟩ := h
  rw [hts.position_eq, hts.upcoming_eq, List.length_append]
  omega

/-- From another cursor that is reached there are fewer tokens to come. -/
theorem length_lt {c rest : σ} (h : Reaches c rest) (hne : rest ≠ c) :
    (LawfulCursor.upcoming rest).length < (LawfulCursor.upcoming c).length := by
  have hsum := h.position_add_length
  have hmove : ¬ Cursor.position rest ≤ Cursor.position c := fun hle => hne (h.eq_of_position_le hle)
  omega

end Reaches

end Reads

/-! ## Sources -/

/-- Sources of type `φ` as sequences of tokens. -/
class TokenSource (φ : Type) (τ : outParam Type) where
  /-- The tokens of a source, from its start to its end. -/
  tokens : φ → List τ

export TokenSource (tokens)

instance : TokenSource String Char where
  tokens := String.toList

instance {τ : Type} : TokenSource (Array τ) τ where
  tokens := Array.toList

/-- Sources that are nothing but the sequence of their tokens. -/
class LawfulTokenSource (φ : Type) (τ : outParam Type) [TokenSource φ τ] : Prop where
  /-- Sources with the same tokens are the same. -/
  eq_of_tokens_eq : ∀ {s s' : φ}, tokens s = tokens s' → s = s'

instance : LawfulTokenSource String Char where
  eq_of_tokens_eq h := String.toList_inj.mp h

instance {τ : Type} : LawfulTokenSource (Array τ) τ where
  eq_of_tokens_eq h := Array.toList_inj.mp h

/-- Cursors that show their source as it is: each is a place in the sequence of its tokens, and
reading leaves the source alone. -/
class LawfulSource (σ : Type) (τ φ : outParam Type) [SourceCursor σ τ φ] [LawfulCursor σ τ]
    [TokenSource φ τ] : Prop where
  /-- The tokens still to be read are those of the remaining source. -/
  upcoming_eq_tokens : ∀ c : σ, LawfulCursor.upcoming c = tokens (SourceCursor.remaining c)
  /-- They are the tokens of the source without those before the position. -/
  upcoming_eq_drop : ∀ c : σ,
    LawfulCursor.upcoming c = (tokens (SourceCursor.source c)).drop (Cursor.position c)
  /-- No cursor is behind the end of its source. -/
  position_le : ∀ c : σ, Cursor.position c ≤ (tokens (SourceCursor.source c)).length
  /-- The length of a source counts its tokens. -/
  sourceLength_eq : ∀ c : σ,
    SourceCursor.sourceLength c = (tokens (SourceCursor.source c)).length
  /-- Reading leaves the source alone. -/
  source_next : ∀ {c rest : σ} {t : τ},
    Cursor.next? c = some (t, rest) → SourceCursor.source rest = SourceCursor.source c

/-- Cursors that can be placed at the start of every source. -/
class LawfulStart (σ : Type) (τ φ : outParam Type) [SourceCursor σ τ φ] : Prop where
  source_start : ∀ s : φ, SourceCursor.source (SourceCursor.start s : σ) = s
  position_start : ∀ s : φ, Cursor.position (SourceCursor.start s : σ) = 0

section LawfulSource

variable {σ τ φ : Type} [SourceCursor σ τ φ] [LawfulCursor σ τ] [TokenSource φ τ]
  [LawfulSource σ τ φ]

theorem Reads.source_eq {c rest : σ} {ts : List τ} (h : Reads c ts rest) :
    SourceCursor.source rest = SourceCursor.source c := by
  induction h with
  | nil c => rfl
  | cons hnext _ ih => rw [ih, LawfulSource.source_next hnext]

theorem LawfulSource.length_upcoming_le (c : σ) :
    (LawfulCursor.upcoming c).length ≤ SourceCursor.sourceLength c := by
  rw [LawfulSource.upcoming_eq_drop, LawfulSource.sourceLength_eq, List.length_drop]
  exact Nat.sub_le _ _

theorem Reaches.source_eq {c rest : σ} (h : Reaches c rest) :
    SourceCursor.source rest = SourceCursor.source c := by
  obtain ⟨ts, hts⟩ := h
  exact hts.source_eq

/-- No cursor that is reached lies behind the end of the source. -/
theorem Reaches.position_le_sourceLength {c rest : σ} (h : Reaches c rest) :
    Cursor.position rest ≤ SourceCursor.sourceLength c := by
  rw [LawfulSource.sourceLength_eq, ← h.source_eq]
  exact LawfulSource.position_le rest

/-- At the start of a source, all of its tokens are to come. -/
theorem LawfulStart.upcoming_start [LawfulStart σ τ φ] (s : φ) :
    LawfulCursor.upcoming (SourceCursor.start s : σ) = tokens s := by
  rw [LawfulSource.upcoming_eq_drop, source_start, position_start, List.drop_zero]

/-- The token at a cursor is the token of the source at its position. -/
theorem LawfulSource.getElem?_position {c rest : σ} {t : τ}
    (h : Cursor.next? c = some (t, rest)) :
    (tokens (SourceCursor.source c))[Cursor.position c]? = some t := by
  have hcons := LawfulCursor.upcoming_eq_cons h
  rw [LawfulSource.upcoming_eq_drop] at hcons
  have hhead := congrArg (fun ts => ts[0]?) hcons
  simpa using hhead

/-- Where nothing can be read, the position is the length of the source. -/
theorem LawfulSource.position_eq_length {c : σ} (h : Cursor.next? c = none) :
    Cursor.position c = (tokens (SourceCursor.source c)).length := by
  have hnil := (LawfulCursor.next?_eq_none_iff c).mp h
  rw [LawfulSource.upcoming_eq_drop, List.drop_eq_nil_iff] at hnil
  have hle := LawfulSource.position_le c
  omega

end LawfulSource

/-! ## The two kinds of cursors -/

theorem TextCursor.source_eq_append (c : TextCursor) :
    c.source = (c.source.sliceTo c.offset).copy ++ c.remaining :=
  c.offset.splits.eq_append

instance : LawfulSource TextCursor Char String where
  upcoming_eq_tokens _ := rfl
  upcoming_eq_drop c := by
    show c.remaining.toList = c.source.toList.drop c.position
    conv => rhs; rw [c.source_eq_append]
    rw [c.position_eq, String.toList_append, ← String.length_toList, List.drop_left]
  position_le c := by
    show c.position ≤ c.source.toList.length
    rw [String.length_toList, c.position_eq]
    conv => rhs; rw [c.source_eq_append]
    rw [String.length_append]
    exact Nat.le_add_right _ _
  sourceLength_eq _ := String.length_toList.symm
  source_next {c rest t} h := by
    obtain ⟨he, -, rfl⟩ := TextCursor.next?_eq_some h
    rfl

instance : LawfulStart TextCursor Char String where
  source_start _ := rfl
  position_start _ := rfl

instance {τ : Type} : LawfulSource (TokenCursor τ) τ (Array τ) where
  upcoming_eq_tokens _ := rfl
  upcoming_eq_drop c := by
    show c.remaining.toList = c.source.toList.drop c.position
    cases c with
    | endOfInput data => simp [TokenCursor.remaining, TokenCursor.source, TokenCursor.position]
    | valid data index =>
        rw [TokenCursor.toList_remaining_valid]
        show data.toList.drop index = data.toList.drop (min index data.size)
        rcases Nat.le_total index data.size with h | h
        · rw [Nat.min_eq_left h]
        · rw [Nat.min_eq_right h, List.drop_of_length_le (by simpa using h),
            List.drop_of_length_le (by simp)]
  position_le c := by
    show c.position ≤ c.source.toList.length
    cases c with
    | endOfInput data => simp [TokenCursor.source, TokenCursor.position]
    | valid data index =>
        show min index data.size ≤ data.toList.length
        rw [Array.length_toList]
        exact Nat.min_le_right _ _
  sourceLength_eq _ := Array.length_toList.symm
  source_next {c rest t} h := by
    show rest.source = c.source
    obtain ⟨data, index, hi, rfl, -, rfl⟩ := TokenCursor.next?_eq_some h
    split <;> rfl

instance {τ : Type} : LawfulStart (TokenCursor τ) τ (Array τ) where
  source_start data := by
    show (TokenCursor.start data).source = data
    unfold TokenCursor.start
    split <;> rfl
  position_start data := by
    show (TokenCursor.start data).position = 0
    unfold TokenCursor.start
    split
    · rename_i hempty
      simpa [TokenCursor.position] using hempty
    · exact Nat.zero_min _

end ParserKit

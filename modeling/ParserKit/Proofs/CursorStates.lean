import Mathlib.Algebra.Order.BigOperators.Group.List
import Mathlib.Algebra.GroupWithZero.Nat
import Mathlib.Data.String.Basic
import ParserKit.Proofs.Acceptance

set_option autoImplicit false

/-! # The states of a cursor

Reading on from the start of a source leads to its tokens one after the other: behind `n` of them
the position is `n`, and the token there is the one with that index (`next?_advance_start`). That
much is the same for both kinds of cursors. What differs is how they keep their place.

A text cursor keeps it twice, as a number of characters and as a number of bytes. The bytes are
those of the characters before it (`TextCursor.byteOffset_eq_sum`), so the offset is never less than
the position and never more than the length of the text in bytes, and neither of the sums of a step
is larger than that (`text_cursor_faithful`). What this means for a cursor that is nothing but these
numbers is the subject of `ParserKit.Proofs.RawCursor`.

A token cursor keeps an index that nothing holds back from lying behind the last token. There it
shows what the end of the input shows, and reading never takes it there
(`token_cursor_faithful`).
-/

namespace ParserKit

open Cursor LawfulCursor SourceCursor

/-! ## From the start of a source -/

/-- The last of several steps can be taken for itself. -/
theorem Cursor.advance_succ {σ τ : Type} [Cursor σ τ] (n : Nat) (c : σ) :
    advance (n + 1) c = advance 1 (advance n c) := by
  induction n generalizing c with
  | zero => rfl
  | succ n ih =>
      cases h : next? c with
      | none =>
          -- At the end of the input, no step leads away.
          have hstay : ∀ m, advance (m + 1) c = c := fun m => by simp only [advance, h]
          rw [hstay, hstay, hstay]
      | some read =>
          have hstep : ∀ m, advance (m + 1) c = advance m read.2 := fun m => by
            simp only [advance, h]
          rw [hstep, hstep, ih]

section Start

variable {σ τ φ : Type} [SourceCursor σ τ φ] [LawfulCursor σ τ] [TokenSource φ τ]
  [LawfulSource σ τ φ] [LawfulStart σ τ φ] {s : φ} {n : Nat}

/-- As many tokens as a source has can be read from its start. -/
theorem reads_start (h : n ≤ (tokens s).length) :
    Reads (start s : σ) ((tokens s).take n) (advance n (start s)) := by
  have hsplit : upcoming (start s : σ) = (tokens s).take n ++ (tokens s).drop n := by
    rw [LawfulStart.upcoming_start, List.take_append_drop]
  have hreads := reads_of_upcoming hsplit
  rwa [List.length_take_of_le h] at hreads

omit [LawfulStart σ τ φ] in
/-- However far is read, the source stays the same. -/
theorem source_advance (n : Nat) (c : σ) : source (advance n c) = source c := by
  induction n generalizing c with
  | zero => rfl
  | succ n ih =>
      rw [advance]
      split
      case h_1 t rest hnext => rw [ih, LawfulSource.source_next hnext]
      case h_2 => rfl

theorem source_advance_start (s : φ) (n : Nat) : source (advance n (start s) : σ) = s := by
  rw [source_advance, LawfulStart.source_start]

theorem position_advance_start (h : n ≤ (tokens s).length) :
    position (advance n (start s) : σ) = n := by
  rw [(reads_start h).position_eq, LawfulStart.position_start, List.length_take_of_le h,
    Nat.zero_add]

theorem upcoming_advance_start (h : n ≤ (tokens s).length) :
    upcoming (advance n (start s) : σ) = (tokens s).drop n := by
  rw [LawfulSource.upcoming_eq_drop, source_advance_start, position_advance_start h]

/-- Behind `n` tokens, the token with the index `n` is read, if there is one. -/
theorem next?_advance_start (h : n ≤ (tokens s).length) :
    next? (advance n (start s) : σ)
      = (tokens s)[n]?.map fun t => (t, advance (n + 1) (start s)) := by
  have hahead := upcoming_advance_start (σ := σ) h
  rcases Nat.lt_or_ge n (tokens s).length with hlt | hge
  · rw [List.drop_eq_getElem_cons hlt] at hahead
    obtain ⟨rest, hnext, -⟩ := StandsAt.next ⟨hahead, rfl⟩
    have hrest : advance (n + 1) (start s : σ) = rest := by
      rw [advance_succ]
      simp only [advance, hnext]
    rw [hnext, hrest, List.getElem?_eq_getElem hlt]
    rfl
  · rw [List.drop_of_length_le hge] at hahead
    rw [(next?_eq_none_iff _).mpr hahead, List.getElem?_eq_none hge]
    rfl

theorem next?_advance_start_eq_none_iff (h : n ≤ (tokens s).length) :
    next? (advance n (start s) : σ) = none ↔ n = (tokens s).length := by
  rw [next?_eq_none_iff, upcoming_advance_start h, List.drop_eq_nil_iff]
  omega

end Start

/-! ## Text cursors -/

/-- The bytes of several characters are those of each of them together. -/
theorem utf8Len_eq_sum (cs : List Char) : String.utf8Len cs = (cs.map Char.utf8Size).sum := by
  induction cs with
  | nil => rfl
  | cons c cs ih =>
      rw [String.utf8Len_cons, ih, List.map_cons, List.sum_cons, Nat.add_comm]

/-- The length of a text in bytes is the sum of those of its characters. -/
theorem utf8ByteSize_eq_sum (s : String) : s.utf8ByteSize = (s.toList.map Char.utf8Size).sum := by
  rw [← String.utf8Len_toList, utf8Len_eq_sum]

namespace TextCursor

/-- The offset of a cursor as a number of bytes. -/
def byteOffset (c : TextCursor) : Nat := c.offset.offset.byteIdx

/-- The text before a cursor has as many characters as the position says. -/
theorem toList_before (c : TextCursor) :
    (c.source.sliceTo c.offset).copy.toList = c.source.toList.take c.position := by
  have hsource := congrArg String.toList c.source_eq_append
  rw [hsource, String.toList_append, c.position_eq, ← String.length_toList, List.take_left]

/-- The offset counts the bytes of the characters before the cursor. -/
theorem byteOffset_eq_sum (c : TextCursor) :
    c.byteOffset = ((c.source.toList.take c.position).map Char.utf8Size).sum := by
  rw [byteOffset, c.offset.splits.offset_eq_rawEndPos, String.byteIdx_rawEndPos,
    utf8ByteSize_eq_sum, toList_before]

theorem isValid_byteOffset (c : TextCursor) : (String.Pos.Raw.mk c.byteOffset).IsValid c.source :=
  c.offset.isValid

theorem byteOffset_le (c : TextCursor) : c.byteOffset ≤ c.source.utf8ByteSize :=
  c.isValid_byteOffset.le_utf8ByteSize

/-- Every character before the cursor has a byte at least. -/
theorem position_le_byteOffset (c : TextCursor) : c.position ≤ c.byteOffset := by
  have hlength : (c.source.toList.take c.position).length = c.position :=
    List.length_take_of_le (LawfulSource.position_le c)
  have hsum := List.length_le_sum_of_one_le
    ((c.source.toList.take c.position).map Char.utf8Size) (by
      intro size hsize
      obtain ⟨ch, -, rfl⟩ := List.mem_map.mp hsize
      exact ch.utf8Size_pos)
  rwa [List.length_map, hlength, ← byteOffset_eq_sum] at hsum

/-- A reading adds the bytes of its character to the offset. -/
theorem byteOffset_next {c rest : TextCursor} {ch : Char} (h : Cursor.next? c = some (ch, rest)) :
    rest.byteOffset = c.byteOffset + ch.utf8Size := by
  obtain ⟨he, rfl, rfl⟩ := next?_eq_some h
  exact c.offset.byteIdx_offset_next he

/-- The sums that a reading forms are the measures of the cursor behind the character, so they do
not exceed the length of the text in bytes either. -/
theorem sums_le {c rest : TextCursor} {ch : Char} (h : Cursor.next? c = some (ch, rest)) :
    c.byteOffset + ch.utf8Size ≤ c.source.utf8ByteSize
      ∧ c.position + 1 ≤ c.source.utf8ByteSize := by
  have hsource : rest.source = c.source := LawfulSource.source_next h
  have hposition : rest.position = c.position + 1 := LawfulCursor.position_next h
  have hoffset := rest.byteOffset_le
  rw [hsource, byteOffset_next h] at hoffset
  have hcount := rest.position_le_byteOffset
  rw [hposition, byteOffset_next h] at hcount
  exact ⟨hoffset, Nat.le_trans hcount hoffset⟩

end TextCursor

/-- **A text cursor counts characters and bytes in step.** As often as a text has characters, one
can be read, and the cursor that `i` readings lead to is at the position `i` of the same text. Its
offset is the number of bytes of the first `i` characters: a boundary between characters, not less
than the position and not behind the end of the text. What remains are the other characters, of
which the next reading gives the first, and nothing exactly at the end. Both of the sums that a
reading forms are within the length of the text in bytes, so they are numbers of a machine word if
that length is. -/
theorem text_cursor_faithful (s : String) (i : Nat) (hi : i ≤ s.length) :
    let c : TextCursor := advance i (TextCursor.start s)
    Reads (TextCursor.start s) (s.toList.take i) c
    ∧ c.source = s
    ∧ c.position = i
    ∧ c.byteOffset = ((s.toList.take i).map Char.utf8Size).sum
    ∧ (String.Pos.Raw.mk c.byteOffset).IsValid s
    ∧ c.position ≤ c.byteOffset ∧ c.byteOffset ≤ s.utf8ByteSize
    ∧ c.remaining = String.ofList (s.toList.drop i)
    ∧ next? c = s.toList[i]?.map (fun ch => (ch, advance (i + 1) (TextCursor.start s)))
    ∧ (next? c = none ↔ i = s.length)
    ∧ ∀ (ch : Char) (rest : TextCursor), next? c = some (ch, rest) →
        rest.byteOffset = c.byteOffset + ch.utf8Size ∧ rest.position = c.position + 1
        ∧ c.byteOffset + ch.utf8Size ≤ s.utf8ByteSize ∧ c.position + 1 ≤ s.utf8ByteSize
        ∧ (s.utf8ByteSize < UInt64.size →
            c.byteOffset + ch.utf8Size < UInt64.size ∧ c.position + 1 < UInt64.size) := by
  intro c
  have hlength : (tokens s).length = s.length := String.length_toList
  have htokens : i ≤ (tokens s).length := by rwa [hlength]
  have hsource : c.source = s := source_advance_start (σ := TextCursor) s i
  have hposition : c.position = i := position_advance_start (σ := TextCursor) htokens
  have hremaining : c.remaining.toList = s.toList.drop i :=
    upcoming_advance_start (σ := TextCursor) htokens
  have hend := next?_advance_start_eq_none_iff (σ := TextCursor) htokens
  rw [hlength] at hend
  refine ⟨reads_start htokens, hsource, hposition, ?_, ?_, c.position_le_byteOffset, ?_, ?_,
    next?_advance_start htokens, hend, ?_⟩
  · rw [c.byteOffset_eq_sum, hsource, hposition]
  · rw [← hsource]
    exact c.isValid_byteOffset
  · rw [← hsource]
    exact c.byteOffset_le
  · rw [← hremaining, String.ofList_toList]
  · intro ch rest hnext
    obtain ⟨hoffset, hcount⟩ := TextCursor.sums_le hnext
    rw [hsource] at hoffset hcount
    exact ⟨TextCursor.byteOffset_next hnext, LawfulCursor.position_next hnext, hoffset, hcount,
      fun hword => ⟨Nat.lt_of_le_of_lt hoffset hword, Nat.lt_of_le_of_lt hcount hword⟩⟩

/-- Behind a character of one byte and one of two bytes, before one of four bytes. -/
theorem text_cursor_faithful_mixed :
    let c : TextCursor := advance 2 (TextCursor.start "aé😀b")
    2 ≤ "aé😀b".length ∧ c.position = 2 ∧ c.byteOffset = 3 ∧ c.remaining = "😀b"
    ∧ (String.Pos.Raw.mk 3).IsValid "aé😀b"
    ∧ ∃ rest : TextCursor, next? c = some ('😀', rest)
        ∧ rest.byteOffset = 7 ∧ 3 + '😀'.utf8Size < UInt64.size := by
  intro c
  have hi : 2 ≤ "aé😀b".length := by decide
  obtain ⟨-, -, hposition, hoffset, hvalid, -, -, hremaining, hnext, -, hsums⟩ :=
    text_cursor_faithful "aé😀b" 2 hi
  have hthree : c.byteOffset = 3 := hoffset
  obtain ⟨hbytes, -, -, -, hword⟩ := hsums _ _ hnext
  have hsum := (hword (by decide)).1
  rw [hthree] at hvalid hbytes hsum
  exact ⟨hi, hposition, hthree, hremaining, hvalid, _, hnext, hbytes, hsum⟩

/-! ## Token cursors -/

namespace TokenCursor

variable {τ : Type}

/-- The cursor stands at a token or says that it does not. -/
def Canonical : TokenCursor τ → Prop
  | valid data index => index < data.size
  | endOfInput _ => True

theorem canonical_start (data : Array τ) : (start data).Canonical := by
  unfold start
  split
  case isTrue => trivial
  case isFalse hne =>
    rw [Array.isEmpty_iff_size_eq_zero] at hne
    exact Nat.pos_of_ne_zero hne

/-- Whatever cursor a token is read from, the one behind it is canonical. -/
theorem canonical_next {c rest : TokenCursor τ} {t : τ} (h : Cursor.next? c = some (t, rest)) :
    rest.Canonical := by
  obtain ⟨data, index, hi, -, -, rfl⟩ := next?_eq_some h
  split
  case isTrue hlt => exact hlt
  case isFalse => trivial

theorem Canonical.of_reads {c rest : TokenCursor τ} {ts : List τ} (h : Reads c ts rest)
    (hc : c.Canonical) : rest.Canonical := by
  induction h with
  | nil c => exact hc
  | cons hnext _ ih => exact ih (canonical_next hnext)

/-- A canonical cursor is at a token of its source or at the end. -/
theorem Canonical.cases {c : TokenCursor τ} (h : c.Canonical) :
    (∃ i, i < c.source.size ∧ c = valid c.source i) ∨ c = endOfInput c.source := by
  cases c with
  | valid data index => exact Or.inl ⟨index, h, rfl⟩
  | endOfInput data => exact Or.inr rfl

/-- What a cursor shows of its source is what lies behind its position. -/
theorem remaining_eq_extract (c : TokenCursor τ) :
    c.remaining = c.source.extract c.position c.source.size := by
  apply Array.toList_inj.mp
  have hdrop : c.remaining.toList = c.source.toList.drop c.position :=
    LawfulSource.upcoming_eq_drop c
  rw [hdrop, Array.toList_extract, List.extract_eq_take_drop]
  exact (List.take_of_length_le (by simp)).symm

/-- Reading gives nothing exactly where the position is the number of tokens. -/
theorem next?_eq_none_iff_position (c : TokenCursor τ) :
    Cursor.next? c = none ↔ c.position = c.source.size := by
  constructor
  · intro h
    have hend : c.position = c.source.toList.length := LawfulSource.position_eq_length h
    rwa [Array.length_toList] at hend
  · intro h
    rw [next?_eq_none_iff]
    show c.remaining.toList = []
    rw [remaining_eq_extract, h]
    simp

/-- A cursor reads the token at its position, if there is one, and then is one position further. -/
theorem next?_at_position (c : TokenCursor τ) (h : c.position < c.source.size) :
    ∃ rest : TokenCursor τ, Cursor.next? c = some (c.source[c.position], rest)
      ∧ rest.position = c.position + 1
      ∧ rest.remaining = c.source.extract (c.position + 1) c.source.size := by
  cases hnext : Cursor.next? c with
  | none =>
      have hend := (next?_eq_none_iff_position c).mp hnext
      omega
  | some read =>
      obtain ⟨t, rest⟩ := read
      have htoken : c.source.toList[c.position]? = some t := LawfulSource.getElem?_position hnext
      have hposition : rest.position = c.position + 1 := LawfulCursor.position_next hnext
      have hsource : rest.source = c.source := LawfulSource.source_next hnext
      rw [Array.getElem?_toList, Array.getElem?_eq_getElem h, Option.some.injEq] at htoken
      refine ⟨rest, by rw [htoken], hposition, ?_⟩
      rw [remaining_eq_extract, hsource, hposition]

/-- The index is increased only where there is a token. -/
theorem index_lt_of_next? {data : Array τ} {index : Nat}
    (h : Cursor.next? (valid data index) ≠ none) : index < data.size := by
  rcases Nat.lt_or_ge index data.size with hlt | hge
  · exact hlt
  · exact absurd (next?_valid_of_ge hge) h

/-- Reading on from the start never leads behind the last token. -/
theorem reached_from_start {data : Array τ} {c : TokenCursor τ} (h : Reaches (start data) c) :
    (∃ i, i < data.size ∧ c = valid data i) ∨ c = endOfInput data := by
  obtain ⟨ts, hreads⟩ := h
  have hsource : c.source = data := hreads.source_eq.trans (LawfulStart.source_start data)
  have hcases := (Canonical.of_reads hreads (canonical_start data)).cases
  rwa [hsource] at hcases

/-- Reading on from the start leads to each token in turn. -/
theorem next?_advance_start_of_lt {data : Array τ} {i : Nat} (h : i < data.size) :
    Cursor.next? (advance i (start data)) = some (data[i], advance (i + 1) (start data)) := by
  have hle : i ≤ (tokens data).length := Nat.le_of_lt h
  have htoken : (tokens data)[i]? = some data[i] := by
    show data.toList[i]? = some data[i]
    rw [Array.getElem?_toList, Array.getElem?_eq_getElem h]
  have hnext := next?_advance_start (σ := TokenCursor τ) hle
  rwa [htoken] at hnext

/-- Behind the last token, nothing is left. -/
theorem remaining_valid_of_ge {data : Array τ} {index : Nat} (h : data.size ≤ index) :
    (valid data index).remaining = #[] := Array.extract_empty_of_size_le_start h

/-- Cursors at the same position with nothing left are equal, however tokens are compared. -/
theorem beq_of_remaining_eq_empty [BEq τ] {c d : TokenCursor τ} (hposition : c.position = d.position)
    (hc : c.remaining = #[]) (hd : d.remaining = #[]) : (c == d) = true := by
  show (c.position == d.position && c.remaining == d.remaining) = true
  rw [hposition, hc, hd, beq_self_eq_true]
  rfl

end TokenCursor

/-- **A token cursor shows its tokens in every state.** A `valid` cursor with any index stands at
that index or, if it lies behind the last token, at the end: this is its position, what it has left
are the tokens from there on, and reading gives the first of them and leaves the others, or gives
nothing exactly at the end. The index is increased only where a token was found, so the sum is at
most the number of tokens, which a machine word holds. Behind the last token, nothing tells the
cursor from `endOfInput`. Reading on from the start leads to no such cursor, but to each index in
turn. -/
theorem token_cursor_faithful {τ : Type} [BEq τ] (data : Array τ) (q : Nat) :
    let c : TokenCursor τ := .valid data q
    let j : Nat := min q data.size
    let finish : TokenCursor τ := .endOfInput data
    let first : TokenCursor τ := .start data
    position c = j
    ∧ remaining c = data.extract j data.size
    ∧ (next? c = none ↔ j = data.size)
    ∧ (∀ h : j < data.size, ∃ rest : TokenCursor τ, next? c = some (data[j], rest)
        ∧ position rest = j + 1 ∧ remaining rest = data.extract (j + 1) data.size)
    ∧ (next? c ≠ none → q + 1 ≤ data.size ∧ (data.size < UInt64.size → q + 1 < UInt64.size))
    ∧ (data.size ≤ q → (c == finish) = true ∧ (finish == c) = true ∧ next? c = next? finish
        ∧ position c = position finish ∧ remaining c = remaining finish
        ∧ source c = source finish ∧ isAtEnd c = isAtEnd finish)
    ∧ (∀ c' : TokenCursor τ, Reaches first c' →
        (∃ i, i < data.size ∧ c' = .valid data i) ∨ c' = finish)
    ∧ ∀ (i : Nat) (h : i < data.size), Reads first (data.toList.take i) (advance i first)
        ∧ position (advance i first) = i
        ∧ next? (advance i first) = some (data[i], advance (i + 1) first) := by
  intro c j finish first
  refine ⟨rfl, c.remaining_eq_extract, c.next?_eq_none_iff_position, c.next?_at_position, ?_, ?_,
    fun _ => TokenCursor.reached_from_start, ?_⟩
  · intro hread
    have hindex : q + 1 ≤ data.size := TokenCursor.index_lt_of_next? hread
    exact ⟨hindex, fun hword => Nat.lt_of_le_of_lt hindex hword⟩
  · intro hq
    have hposition : c.position = finish.position := Nat.min_eq_right hq
    have hremaining : c.remaining = #[] := TokenCursor.remaining_valid_of_ge hq
    have hnext : next? c = next? finish := TokenCursor.next?_valid_of_ge hq
    exact ⟨TokenCursor.beq_of_remaining_eq_empty hposition hremaining rfl,
      TokenCursor.beq_of_remaining_eq_empty hposition.symm rfl hremaining, hnext, hposition,
      hremaining, rfl, by rw [isAtEnd, isAtEnd, hnext]⟩
  · intro i h
    have hle : i ≤ (tokens data).length := Nat.le_of_lt h
    exact ⟨reads_start hle, position_advance_start hle, TokenCursor.next?_advance_start_of_lt h⟩

/-- Two letters: the cursor at the last of them, the one with the largest index that a machine word
holds, and the one that a reading from the start leads to. -/
theorem token_cursor_faithful_letters :
    let data : Array Char := #['a', 'b']
    let first : TokenCursor Char := .start data
    let last : TokenCursor Char := .valid data 1
    let far : TokenCursor Char := .valid data (UInt64.size - 1)
    (∃ rest : TokenCursor Char, next? last = some ('b', rest) ∧ position rest = 2
      ∧ remaining rest = #[])
    ∧ 1 + 1 < UInt64.size
    ∧ data.size ≤ UInt64.size - 1 ∧ (far == .endOfInput data) = true ∧ next? far = none
    ∧ Reads first ['a'] (advance 1 first)
    ∧ next? (advance 1 first) = some ('b', advance 2 first)
    ∧ ((∃ i, i < data.size ∧ advance 1 first = .valid data i)
        ∨ advance 1 first = .endOfInput data) := by
  intro data first last far
  obtain ⟨-, -, -, htoken, hsum, -, hreached, hturn⟩ := token_cursor_faithful data 1
  obtain ⟨-, -, hend, -, -, hbehind, -, -⟩ := token_cursor_faithful data (UInt64.size - 1)
  have hfar : data.size ≤ UInt64.size - 1 := by decide
  obtain ⟨rest, hnext, hposition, hremaining⟩ := htoken (by decide)
  obtain ⟨hreads, -, hsecond⟩ := hturn 1 (by decide)
  have hread : next? last ≠ none := fun hnone => by
    rw [hnone] at hnext
    cases hnext
  exact ⟨⟨rest, hnext, hposition, hremaining⟩, (hsum hread).2 (by decide), hfar, (hbehind hfar).1,
    hend.mpr (Nat.min_eq_right hfar), hreads, hsecond, hreached _ ⟨_, hreads⟩⟩

end ParserKit

import ParserKit.Cursor.Text
import ParserKit.Cursor.Tokens
import ParserKit.Lexeme
import ParserKit.Proofs.Returns

set_option autoImplicit false

/-! # Descriptions are unambiguous

A description names one token only. For numbers this is a fact about decimal digits; for characters
and texts it rests on the escapes: what stands between the delimiters can be read back one character
after the other (`Text.unescape?_escape`), and none of the characters is written in a way that
starts with the delimiter, so the text ends at the first one (`Text.quote_append_inj`). The codes of
unprintable characters have as many digits as they need; the brace behind them says where they end.

So the error of a parser that expects a token and finds another one never names the same thing twice
(`descriptions_unambiguous`).
-/

namespace ParserKit

namespace Text

/-! ## Hexadecimal digits -/

/-- The value of a hexadecimal digit. -/
def hexValue (d : Char) : Nat :=
  if d.isDigit then d.toNat - '0'.toNat else d.toNat - 'a'.toNat + 10

/-- The number that is written by some hexadecimal digits. -/
def ofHexDigits (ds : List Char) : Nat := ds.foldl (fun n d => 16 * n + hexValue d) 0

theorem hexValue_digitChar : ∀ n < 16, hexValue (Nat.digitChar n) = n := by decide

theorem digitChar_ne_brace : ∀ n < 16, Nat.digitChar n ≠ '}' := by decide

theorem ofHexDigits_concat (ds : List Char) (d : Char) :
    ofHexDigits (ds ++ [d]) = 16 * ofHexDigits ds + hexValue d := by
  rw [ofHexDigits, List.foldl_append]
  rfl

/-- The digits of a number write that number. -/
theorem ofHexDigits_toDigits (n : Nat) : ofHexDigits (Nat.toDigits 16 n) = n := by
  induction n using Nat.strongRecOn with
  | ind n ih =>
      rcases Nat.lt_or_ge n 16 with hlt | hge
      · rw [Nat.toDigits_of_lt_base hlt, ← List.nil_append [_], ofHexDigits_concat,
          hexValue_digitChar n hlt]
        exact Nat.zero_add n
      · rw [Nat.toDigits_of_base_le (by decide) hge, ofHexDigits_concat,
          ih (n / 16) (by omega), hexValue_digitChar (n % 16) (by omega)]
        omega

theorem brace_not_mem_toDigits (n : Nat) : '}' ∉ Nat.toDigits 16 n := by
  induction n using Nat.strongRecOn with
  | ind n ih =>
      intro hmem
      rcases Nat.lt_or_ge n 16 with hlt | hge
      · rw [Nat.toDigits_of_lt_base hlt, List.mem_singleton] at hmem
        exact digitChar_ne_brace n hlt hmem.symm
      · rw [Nat.toDigits_of_base_le (by decide) hge, List.mem_append, List.mem_singleton] at hmem
        rcases hmem with hmem | hmem
        · exact ih (n / 16) (by omega) hmem
        · exact digitChar_ne_brace (n % 16) (by omega) hmem.symm

/-! ## Reading an escape back -/

/-- What a letter behind a backslash stands for, unless it announces a code point. -/
def unescapeLetter (letter : Char) : Char :=
  if letter = '0' then '\x00'
  else if letter = 't' then '\t'
  else if letter = 'r' then '\r'
  else if letter = 'n' then '\n'
  else letter

/-- Reads one character as it is written inside of a quotation, and leaves what follows. -/
def unescape? : List Char → Option (Char × List Char)
  | [] => none
  | c :: rest =>
    if c = '\\' then
      match rest with
      | [] => none
      | letter :: rest =>
        if letter = 'u' then
          -- The digits stand between the braces.
          let digits := rest.tail.takeWhile (· ≠ '}')
          some (Char.ofNat (ofHexDigits digits), (rest.tail.dropWhile (· ≠ '}')).tail)
        else some (unescapeLetter letter, rest)
    else some (c, rest)

theorem unescape?_literal {c : Char} (h : c ≠ '\\') (rest : List Char) :
    unescape? (c :: rest) = some (c, rest) := by
  simp [unescape?, h]

theorem unescape?_letter {letter : Char} (h : letter ≠ 'u') (rest : List Char) :
    unescape? ('\\' :: letter :: rest) = some (unescapeLetter letter, rest) := by
  simp [unescape?, h]

theorem unescape?_codePoint (c : Char) (rest : List Char) :
    unescape? (codePointEscape c ++ rest) = some (c, rest) := by
  have hdigits : ∀ d ∈ Nat.toDigits 16 c.toNat, decide (d ≠ '}') = true := by
    intro d hd
    exact decide_eq_true fun heq => brace_not_mem_toDigits c.toNat (heq ▸ hd)
  have htake : (Nat.toDigits 16 c.toNat ++ '}' :: rest).takeWhile (· ≠ '}')
      = Nat.toDigits 16 c.toNat := by
    rw [List.takeWhile_append_of_pos hdigits]
    simp
  have hdrop : (Nat.toDigits 16 c.toNat ++ '}' :: rest).dropWhile (· ≠ '}') = '}' :: rest := by
    rw [List.dropWhile_append_of_pos hdigits]
    simp
  have hwritten : codePointEscape c ++ rest
      = '\\' :: 'u' :: '{' :: (Nat.toDigits 16 c.toNat ++ '}' :: rest) := by
    simp [codePointEscape]
  rw [hwritten, unescape?, if_pos rfl]
  show some (Char.ofNat (ofHexDigits _), _) = _
  rw [List.tail_cons, htake, hdrop, ofHexDigits_toDigits, Char.ofNat_toNat, List.tail_cons]

/-- The delimiters that are not taken for a part of an escape. -/
def IsDelimiter (d : Char) : Prop := d ∉ ['\\', '0', 't', 'r', 'n', 'u']

instance (d : Char) : Decidable (IsDelimiter d) := inferInstanceAs (Decidable (d ∉ _))

variable {d : Char}

theorem IsDelimiter.ne_backslash (hd : IsDelimiter d) : d ≠ '\\' := by
  rintro rfl
  exact hd (by decide)

theorem IsDelimiter.ne_codePoint (hd : IsDelimiter d) : d ≠ 'u' := by
  rintro rfl
  exact hd (by decide)

theorem IsDelimiter.unescapeLetter_eq (hd : IsDelimiter d) : unescapeLetter d = d := by
  simp only [IsDelimiter, List.mem_cons, List.not_mem_nil, or_false, not_or] at hd
  obtain ⟨-, hzero, htab, hreturn, hline, -⟩ := hd
  rw [unescapeLetter, if_neg hzero, if_neg htab, if_neg hreturn, if_neg hline]

/-- What was escaped is read back, and what stands behind it is left. -/
theorem unescape?_escape (hd : IsDelimiter d) (c : Char) (rest : List Char) :
    unescape? (escape d c ++ rest) = some (c, rest) := by
  -- The cases are those of `escape`: four short escapes, the backslash and the delimiter, then a
  -- code point or the character itself.
  unfold escape
  split
  case isTrue h => exact h ▸ unescape?_letter (by decide) rest
  split
  case isTrue h => exact h ▸ unescape?_letter (by decide) rest
  split
  case isTrue h => exact h ▸ unescape?_letter (by decide) rest
  split
  case isTrue h => exact h ▸ unescape?_letter (by decide) rest
  split
  case isTrue h =>
    rcases h with rfl | rfl
    · exact unescape?_letter (by decide) rest
    · show unescape? ('\\' :: c :: rest) = _
      rw [unescape?_letter hd.ne_codePoint, hd.unescapeLetter_eq]
  case isFalse h =>
    split
    · exact unescape?_codePoint c rest
    · exact unescape?_literal (fun hc => h (Or.inl hc)) rest

/-- The delimiter itself takes an escape of two characters. -/
theorem length_escape_self (d : Char) : (escape d d).length = 2 := by
  unfold escape
  rw [if_pos (Or.inr rfl : d = '\\' ∨ d = d)]
  grind

/-- No character is written in a way that starts with the delimiter. -/
theorem escape_append_ne_cons (hd : IsDelimiter d) (c : Char) (rest rest' : List Char) :
    escape d c ++ rest ≠ d :: rest' := by
  intro h
  -- Both sides read back as a character and what follows it, so the character is the delimiter.
  have hread := congrArg unescape? h
  rw [unescape?_escape hd, unescape?_literal hd.ne_backslash, Option.some.injEq,
    Prod.mk.injEq] at hread
  obtain ⟨rfl, rfl⟩ := hread
  have hlength := congrArg List.length h
  rw [List.length_append, length_escape_self, List.length_cons] at hlength
  omega

/-! ## Quotations -/

/-- **A quotation ends where it says.** If the same text starts with two quotations, they quote the
same characters and the same text is left behind them. -/
theorem quote_append_inj (hd : IsDelimiter d) {cs cs' rest rest' : List Char}
    (h : quote d cs ++ rest = quote d cs' ++ rest') : cs = cs' ∧ rest = rest' := by
  simp only [quote, List.cons_append, List.append_assoc, List.nil_append, List.cons.injEq,
    true_and] at h
  induction cs generalizing cs' with
  | nil =>
      cases cs' with
      | nil => exact ⟨rfl, List.tail_eq_of_cons_eq h⟩
      | cons c' cs' =>
          rw [List.flatMap_cons, List.append_assoc] at h
          exact absurd h.symm (escape_append_ne_cons hd c' _ _)
  | cons c cs ih =>
      rw [List.flatMap_cons, List.append_assoc] at h
      cases cs' with
      | nil => exact absurd h (escape_append_ne_cons hd c _ _)
      | cons c' cs' =>
          rw [List.flatMap_cons, List.append_assoc] at h
          have hread := congrArg unescape? h
          rw [unescape?_escape hd, unescape?_escape hd, Option.some.injEq, Prod.mk.injEq] at hread
          obtain ⟨rfl, hrest⟩ := hread
          obtain ⟨rfl, rfl⟩ := ih hrest
          exact ⟨rfl, rfl⟩

theorem quote_injective (hd : IsDelimiter d) : Function.Injective (quote d) := by
  intro cs cs' h
  exact (quote_append_inj hd (congrArg (· ++ []) h)).1

theorem quoteChar_injective : Function.Injective quoteChar := by
  intro c c' h
  have hquote := quote_injective (by decide) (String.ofList_inj.mp h)
  exact List.head_eq_of_cons_eq hquote

theorem quoteText_injective : Function.Injective quoteText := by
  intro s s' h
  exact String.toList_inj.mp (quote_injective (by decide) (String.ofList_inj.mp h))

end Text

/-! ## Numbers -/

/-- The decimal digits of a number write that number. -/
theorem leftInverse_repr :
    Function.LeftInverse (fun s : String => Nat.ofDigitChars 10 s.toList 0) Nat.repr := by
  intro n
  show Nat.ofDigitChars 10 (Nat.repr n).toList 0 = n
  rw [Nat.toList_repr, Nat.ofDigitChars_ten_toDigits]

/-- No number starts with a minus sign. -/
theorem minus_append_ne_repr (s : String) (n : Nat) : "-" ++ s ≠ Nat.repr n := by
  intro h
  have hmem : '-' ∈ (Nat.repr n).toList := by
    rw [← h, String.toList_append]
    exact List.mem_append_left _ (by decide)
  rw [Nat.toList_repr] at hmem
  exact absurd (Nat.isDigit_of_mem_toDigits (by decide) (by decide) hmem) (by decide)

theorem describeInt_injective : Function.Injective describeInt := by
  intro a b h
  cases a with
  | ofNat n =>
      cases b with
      | ofNat m => rw [leftInverse_repr.injective h]
      | negSucc m => exact absurd h.symm (minus_append_ne_repr _ n)
  | negSucc n =>
      cases b with
      | ofNat m => exact absurd h (minus_append_ne_repr _ m)
      | negSucc m =>
          have hdigits := leftInverse_repr.injective ((String.append_right_inj "-").mp h)
          rw [Nat.succ.inj hdigits]

theorem describeByte_injective : Function.Injective (describe : UInt8 → String) := by
  intro a b h
  exact UInt8.toNat_inj.mp (leftInverse_repr.injective h)

/-! ## Lexemes -/

theorem head?_append_of {s t : String} {a : Char} (h : s.toList.head? = some a) :
    (s ++ t).toList.head? = some a := by
  rw [String.toList_append, List.head?_append, h]
  rfl

namespace Text

/-- A constructor with one argument tells its argument. -/
theorem application_injective (name : String) :
    Function.Injective fun argument => application name [argument] := by
  intro a b h
  simp only [application, tuple, commaSeparated, String.intercalate_singleton,
    String.append_assoc] at h
  exact (String.append_left_inj ")").mp
    ((String.append_right_inj "(").mp ((String.append_right_inj name).mp h))

end Text

namespace Lexeme

/-- The first letter of the description of a lexeme; no two kinds of lexemes share one. -/
def initial : Lexeme → Char
  | plus => 'P'
  | minus => 'M'
  | times => 'T'
  | leftParen => 'L'
  | rightParen => 'R'
  | comma => 'C'
  | number _ => 'N'
  | identifier _ => 'I'

theorem head?_describe (x : Lexeme) : (describe x).toList.head? = some x.initial := by
  cases x with
  | number value => exact head?_append_of rfl
  | identifier name => exact head?_append_of rfl
  | _ => rfl

theorem describe_injective : Function.Injective (describe : Lexeme → String) := by
  intro x y h
  have hinitial : x.initial = y.initial := by
    have hhead := congrArg (fun s : String => s.toList.head?) h
    simpa only [head?_describe, Option.some.injEq] using hhead
  cases x with
  | number a =>
      cases y with
      | number b => rw [describeInt_injective (Text.application_injective "Num" h)]
      | _ => simp [initial] at hinitial
  | identifier a =>
      cases y with
      | identifier b => rw [Text.quoteText_injective (Text.application_injective "Ident" h)]
      | _ => simp [initial] at hinitial
  | _ => cases y <;> simp_all [initial]

end Lexeme

/-! ## Errors about tokens -/

/-- The descriptions of the tokens of a type are unambiguous. -/
structure Unambiguous (τ : Type) [Describe τ] [BEq τ] : Prop where
  /-- Tokens with the same description are the same. -/
  describe_injective : Function.Injective (describe : τ → String)
  /-- The error about a token that is not the expected one names the two differently, whatever kind
  of cursor it was read from. -/
  names_differ : ∀ (σ : Type) [Cursor σ τ] (t : τ) (c : σ) (expected found : String) (n : Nat),
    (Parser.token t : Parser σ τ).Returns c (.failure (.unexpected expected found n)) →
      expected ≠ found

/-- Where descriptions tell tokens apart, errors do. -/
theorem Unambiguous.of_injective {τ : Type} [Describe τ] [BEq τ] [ReflBEq τ]
    (h : Function.Injective (describe : τ → String)) : Unambiguous τ where
  describe_injective := h
  names_differ σ _ t c expected found n hfailure := by
    rw [Parser.token, Parser.satisfy_failure] at hfailure
    rcases hfailure with ⟨-, herror⟩ | ⟨x, rest, -, hx, herror⟩
    · cases herror
    · cases herror
      intro hsame
      rw [h hsame.symm, beq_self_eq_true] at hx
      cases hx

/-- **Descriptions are unambiguous.** Characters, integers, bytes, texts and lexemes are told apart
by their descriptions. So a parser of one token that fails on another one, on any kind of cursor,
never says that it expected what it found. -/
theorem descriptions_unambiguous :
    Unambiguous Char ∧ Unambiguous Int ∧ Unambiguous UInt8 ∧ Unambiguous String
      ∧ Unambiguous Lexeme :=
  ⟨.of_injective Text.quoteChar_injective, .of_injective describeInt_injective,
    .of_injective describeByte_injective, .of_injective Text.quoteText_injective,
    .of_injective Lexeme.describe_injective⟩

/-- A quote where a backslash was expected, and a line break where a backslash and a letter were. -/
theorem descriptions_unambiguous_escapes :
    let c : TextCursor := TextCursor.start "'"
    let d : TokenCursor String := .valid #["\n"] 0
    (Parser.token '\\' : Parser TextCursor Char).Returns c
        (.failure (.unexpected "'\\\\'" "'\\''" 0))
    ∧ "'\\\\'" ≠ "'\\''"
    ∧ (Parser.token "\\n" : Parser (TokenCursor String) String).Returns d
        (.failure (.unexpected "\"\\\\n\"" "\"\\n\"" 0))
    ∧ "\"\\\\n\"" ≠ "\"\\n\"" := by
  intro c d
  obtain ⟨hchar, -, -, htext, -⟩ := descriptions_unambiguous
  have hnext : Cursor.next? (TextCursor.start "'")
      = some ('\'', Cursor.advance 1 (TextCursor.start "'")) := rfl
  have hquote : (Parser.token '\\' : Parser TextCursor Char).Returns c
      (.failure (.unexpected "'\\\\'" "'\\''" 0)) :=
    Parser.satisfy_failure.mpr (Or.inr ⟨_, _, hnext, rfl, rfl⟩)
  have hbreak : (Parser.token "\\n" : Parser (TokenCursor String) String).Returns d
      (.failure (.unexpected "\"\\\\n\"" "\"\\n\"" 0)) := ⟨0, rfl⟩
  exact ⟨hquote, hchar.names_differ _ _ _ _ _ _ hquote, hbreak,
    htext.names_differ _ _ _ _ _ _ hbreak⟩

end ParserKit

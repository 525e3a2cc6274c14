import ParserKit.Parser.Recursion
import ParserKit.Proofs.Acceptance

set_option autoImplicit false

/-! # The depth of a nest

A parser that counts how deeply parentheses are nested: one more than itself between two
parentheses, and zero where that cannot be had. Each level of its recursion may fall back to zero,
and it falls back to the cursor on which it was run itself.

So `k` opening parentheses with enough closing ones behind them are counted and read
(`accepts_nest`), and with fewer nothing is read at all (`accepts_nothing`). In the second case the
inner levels do succeed, as many as there are closing parentheses. The next level further out finds
none, falls back and stops before its own opening parenthesis. That is where the level around it
asks for a closing one, and so all of them fall back up to the outermost.
-/

namespace ParserKit.NestingDepth

open Cursor LawfulCursor ParserKit.Parser

/-! ## The parser -/

/-- What the depth of a nest is, said of `self` that stands for the depth. -/
def depthBody (self : Unit → Parser TextCursor Nat) (_ : Unit) : Parser TextCursor Nat :=
  ((((token '(').right (delay self)).left (token ')')).map (· + 1)).orElse (Parser.pure 0)

theorem local_depthBody : Local depthBody := by
  intro n self self' hself _
  have hinner : Below n (delay self) (delay self') := .delay (hself ())
  have hnest := (((Below.refl n (token '(')).right hinner).left (Below.refl n (token ')')))
  exact (hnest.map (· + 1)).orElse (.refl n _)

/-- Counts how deeply the parentheses at the cursor are nested. -/
def depth : Parser TextCursor Nat := fix depthBody local_depthBody ()

/-- A nest that is one level deeper than the one that `depth` counts. -/
def deeper : Parser TextCursor Nat :=
  (((token '(').right depth).left (token ')')).map (· + 1)

theorem returns_depth {c : TextCursor} {o : Outcome TextCursor Nat} :
    depth.Returns c o ↔ (deeper.orElse (Parser.pure 0)).Returns c o :=
  returns_fix local_depthBody () c o

/-! ## One level -/

section Level

variable {ts r : List Char} {k : Nat}

/-- A level that finds the next one between its parentheses counts one more. -/
theorem accepts_depth_succ (h : Accepts depth ts (')' :: r) k) :
    Accepts depth ('(' :: ts ++ [')']) r (k + 1) := by
  have hinner : Accepts ((token '(').right depth) ('(' :: ts) (')' :: r) k :=
    (accepts_token '(' _).right h
  have hnest : Accepts deeper ('(' :: ts ++ [')']) r (k + 1) :=
    (hinner.left (accepts_token ')' r)).map (· + 1)
  intro c hc
  obtain ⟨rest, hreturns, hreads⟩ := hnest.orElse (Parser.pure 0) c hc
  exact ⟨rest, returns_depth.mpr hreturns, hreads⟩

/-- A level that fails falls back to the cursor on which it was run. -/
theorem accepts_depth_zero (h : Refuses deeper r) : Accepts depth [] r 0 := by
  intro c hc
  obtain ⟨rest, hreturns, hreads⟩ := h.optional 0 c hc
  exact ⟨rest, returns_depth.mpr hreturns, hreads⟩

theorem refuses_deeper_of_head (h : r.head? ≠ some '(') : Refuses deeper r := by
  have hopening : Refuses (token '(' : Parser TextCursor Char) r :=
    refuses_token fun u hu he => h (he ▸ hu)
  exact ((hopening.right depth).left (token ')')).map (· + 1)

/-- Without a closing parenthesis behind what the next level has read, a level fails. -/
theorem refuses_deeper_of_inner (h : Accepts depth ts r k) (hr : r.head? ≠ some ')') :
    Refuses deeper ('(' :: (ts ++ r)) := by
  have hinner : Accepts ((token '(').right depth) ('(' :: ts) r k := (accepts_token '(' _).right h
  have hclosing : Refuses (token ')' : Parser TextCursor Char) r :=
    refuses_token fun u hu he => hr (he ▸ hu)
  exact (hinner.left_refuses hclosing).map (· + 1)

end Level

/-! ## All levels -/

/-- As many opening parentheses as closing ones behind them. -/
def nest (k : Nat) : List Char := List.replicate k '(' ++ List.replicate k ')'

theorem nest_succ (k : Nat) : nest (k + 1) = '(' :: nest k ++ [')'] := by
  unfold nest
  rw [List.replicate_succ, List.replicate_succ' (n := k) (a := ')')]
  simp

theorem length_nest (k : Nat) : (nest k).length = 2 * k := by
  unfold nest
  rw [List.length_append, List.length_replicate, List.length_replicate]
  omega

section Nests

variable {k m : Nat} {r : List Char}

/-- A nest that is closed is counted and read, where no further parenthesis opens instead of it. -/
theorem accepts_nest (h : k = 0 → r.head? ≠ some '(') : Accepts depth (nest k) r k := by
  induction k generalizing r with
  | zero => exact accepts_depth_zero (refuses_deeper_of_head (h rfl))
  | succ k ih =>
      rw [nest_succ]
      exact accepts_depth_succ (ih fun _ => by simp)

/-- A nest that is not closed is not read at all, though its inner levels may be closed. -/
theorem accepts_nothing (hlt : m < k) (hclosing : r.head? ≠ some ')')
    (hopening : m = 0 → r.head? ≠ some '(') :
    Accepts depth [] (List.replicate k '(' ++ (List.replicate m ')' ++ r)) 0 := by
  induction k with
  | zero => omega
  | succ k ih =>
      rw [List.replicate_succ, List.cons_append]
      refine accepts_depth_zero ?_
      by_cases hinner : m < k
      · -- The next level falls back before its opening parenthesis, where this one wants a closing.
        have hnext := ih hinner
        obtain ⟨j, rfl⟩ : ∃ j, k = j + 1 := ⟨k - 1, by omega⟩
        rw [List.replicate_succ, List.cons_append] at hnext ⊢
        exact refuses_deeper_of_inner hnext (by simp)
      · -- The next level takes the last closing parenthesis, and none is left for this one.
        obtain rfl : m = k := by omega
        have hnest : Accepts depth (nest m) r m := accepts_nest hopening
        have hrefuses := refuses_deeper_of_inner hnest hclosing
        rwa [nest, List.append_assoc] at hrefuses

/-- Where the closing parentheses suffice, a level counts the opening ones ahead. -/
theorem depth_counts {c : TextCursor} (hle : k ≤ m) (hopening : m = 0 → r.head? ≠ some '(')
    (hc : upcoming c = List.replicate k '(' ++ (List.replicate m ')' ++ r)) :
    ∃ rest, depth.Returns c (.success k rest) ∧ Reads c (nest k) rest := by
  have hsplit : List.replicate m ')' = List.replicate k ')' ++ List.replicate (m - k) ')' := by
    rw [List.replicate_append_replicate, Nat.add_sub_cancel' hle]
  have hnest : upcoming c = nest k ++ (List.replicate (m - k) ')' ++ r) := by
    rw [hc, hsplit, nest, List.append_assoc, List.append_assoc]
  refine accepts_nest (fun hk => ?_) c hnest
  -- Without opening parentheses to count, all the closing ones are still ahead.
  subst hk
  by_cases hm : m = 0
  · simpa [hm] using hopening hm
  · obtain ⟨i, rfl⟩ : ∃ i, m = i + 1 := ⟨m - 1, by omega⟩
    simp [List.replicate_succ]

end Nests

/-! ## Texts -/

/-- The number of opening parentheses at the start of a text. -/
def openings (s : String) : Nat := (s.toList.takeWhile (· == '(')).length

/-- The number of closing parentheses right behind them. -/
def closings (s : String) : Nat :=
  ((s.toList.dropWhile (· == '(')).takeWhile (· == ')')).length

theorem takeWhile_beq_eq_replicate (t : Char) (ts : List Char) :
    ts.takeWhile (· == t) = List.replicate (ts.takeWhile (· == t)).length t := by
  refine List.eq_replicate_iff.mpr ⟨rfl, fun u hu => ?_⟩
  have hall := List.all_eq_true.mp (List.all_takeWhile (p := (· == t)) (l := ts)) u hu
  exact eq_of_beq hall

theorem head?_dropWhile_beq_ne (t : Char) (ts : List Char) :
    (ts.dropWhile (· == t)).head? ≠ some t := by
  intro h
  have hnot := List.head?_dropWhile_not (· == t) ts
  rw [h] at hnot
  simp at hnot

/-- A text begins with its opening parentheses, and then the closing ones, and neither go on. -/
theorem exists_shape (s : String) :
    ∃ r, s.toList = List.replicate (openings s) '(' ++ (List.replicate (closings s) ')' ++ r)
      ∧ r.head? ≠ some ')' ∧ (closings s = 0 → r.head? ≠ some '(') := by
  have hopened := List.takeWhile_append_dropWhile (p := (· == '(')) (l := s.toList)
  have hbehind :=
    List.takeWhile_append_dropWhile (p := (· == ')')) (l := s.toList.dropWhile (· == '('))
  refine ⟨(s.toList.dropWhile (· == '(')).dropWhile (· == ')'), ?_, head?_dropWhile_beq_ne _ _, ?_⟩
  · rw [openings, closings, ← takeWhile_beq_eq_replicate, ← takeWhile_beq_eq_replicate, hbehind,
      hopened]
  · intro hzero
    -- Without closing parentheses, the rest is what the opening ones end at.
    rw [closings, List.length_eq_zero_iff] at hzero
    rw [hzero, List.nil_append] at hbehind
    rw [hbehind]
    exact head?_dropWhile_beq_ne '(' s.toList

/-! ## The whole nest or nothing -/

/-- **A nest is counted as a whole or not at all.** Take the opening parentheses at the start of a
text and the closing ones right behind them. If these suffice, the depth is the number of the
opening ones, and twice as many characters are read. If there are fewer, the depth is zero and
nothing is read, although the inner levels have succeeded: run before the last `j` opening
parentheses, for any `j` that there are closing ones for, the parser counts these. -/
theorem depth_whole_or_nothing (s : String) :
    (openings s ≤ closings s →
        ∃ rest, depth.Returns (TextCursor.start s) (.success (openings s) rest)
          ∧ Reads (TextCursor.start s) (nest (openings s)) rest ∧ position rest = 2 * openings s)
      ∧ (closings s < openings s →
        depth.Returns (TextCursor.start s) (.success 0 (TextCursor.start s))
          ∧ ∀ j ≤ closings s, ∃ rest,
              depth.Returns (advance (openings s - j) (TextCursor.start s)) (.success j rest)
                ∧ position rest = openings s + j) := by
  obtain ⟨r, hshape, hclosing, hopening⟩ := exists_shape s
  generalize openings s = k, closings s = m at *
  have hc : upcoming (TextCursor.start s) = List.replicate k '(' ++ (List.replicate m ')' ++ r) :=
    (LawfulStart.upcoming_start s).trans hshape
  have hstart : position (TextCursor.start s) = 0 := LawfulStart.position_start s
  constructor
  · intro hle
    obtain ⟨rest, hreturns, hreads⟩ := depth_counts hle hopening hc
    refine ⟨rest, hreturns, hreads, ?_⟩
    rw [hreads.position_eq, hstart, length_nest, Nat.zero_add]
  · intro hlt
    constructor
    · obtain ⟨rest, hreturns, hreads⟩ := accepts_nothing hlt hclosing hopening _ hc
      cases hreads
      exact hreturns
    · intro j hj
      -- The level in question is run behind the first `k - j` opening parentheses.
      have hsplit : List.replicate k '(' = List.replicate (k - j) '(' ++ List.replicate j '(' := by
        rw [List.replicate_append_replicate, Nat.sub_add_cancel (by omega)]
      rw [hsplit, List.append_assoc] at hc
      have houter := reads_of_upcoming hc
      rw [List.length_replicate] at houter
      obtain ⟨rest, hreturns, hreads⟩ :=
        depth_counts hj hopening (houter.upcoming_of_append hc)
      refine ⟨rest, hreturns, ?_⟩
      rw [hreads.position_eq, houter.position_eq, hstart, length_nest, List.length_replicate]
      omega

/-- A nest that is closed is counted, with the text behind it left; in one that is not, two levels
have been counted before everything is given back. -/
theorem depth_whole_or_nothing_nests :
    (∃ rest, depth.Returns (TextCursor.start "((()))x") (.success 3 rest) ∧ position rest = 6)
    ∧ depth.Returns (TextCursor.start "(((())x") (.success 0 (TextCursor.start "(((())x"))
    ∧ ∃ rest, depth.Returns (advance 2 (TextCursor.start "(((())x")) (.success 2 rest)
        ∧ position rest = 6 := by
  refine ⟨?_, ?_, ?_⟩
  · obtain ⟨rest, hreturns, -, hpos⟩ := (depth_whole_or_nothing "((()))x").1 (by decide)
    exact ⟨rest, hreturns, hpos⟩
  · exact ((depth_whole_or_nothing "(((())x").2 (by decide)).1
  · exact ((depth_whole_or_nothing "(((())x").2 (by decide)).2 2 (by decide)

end ParserKit.NestingDepth

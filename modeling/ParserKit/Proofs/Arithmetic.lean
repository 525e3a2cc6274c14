import ParserKit.Grammar.Parse
import ParserKit.Proofs.Acceptance

set_option autoImplicit false

/-! # Arithmetic

A grammar of arithmetic over lexemes in three levels: a factor is a number or an expression in
parentheses, a term is a product of factors, and an expression is a sum of terms. It evaluates what
it reads. That products bind tighter than sums and that both are taken from the left is nowhere
said in it; it comes from the order of the levels and from the folds over their repetitions.

`Expr.render` writes an expression with the parentheses that it needs, and with others where the
tree asks for them. The grammar reads every expression so written back and returns its value,
whatever follows that does not go on with an operator (`value_of_render`).

The two upper levels are one construction, a first part and rounds behind it (`chained`), and one
argument: an operand that is written behind a chain makes a longer chain (`Continues.snoc`). The
induction over the tree only has to say which operands need parentheses.
-/

namespace ParserKit.Arithmetic

open ParserKit.Parser

/-! ## The grammar -/

/-- A first number and what is repeated behind it, combined from the left by `step`, which has no
result if it leaves the range. -/
def foldRest (step : Int → Value Lexeme → Option Int) :
    Value Lexeme → Except Fault (Value Lexeme)
  | .pair (.int first) (.list rest) => .ok (.ofInt? (rest.foldlM step first))
  | _ => .ok .illTyped

/-- The total multiplied by a further factor. -/
def multiply? (total : Int) : Value Lexeme → Option Int
  | .int n => Value.checked? (total * n)
  | _ => none

/-- The total with a further term added if a plus stands before it, and subtracted otherwise. -/
def accumulate? (total : Int) : Value Lexeme → Option Int
  | .pair (.element .plus) (.int n) => Value.checked? (total + n)
  | .pair (.element _) (.int n) => Value.checked? (total - n)
  | _ => none

/-- A first part and rounds behind it, folded into one number. -/
def chained (first round : Written Lexeme) (step : Int → Value Lexeme → Option Int) :
    Written Lexeme :=
  .map (.both first (.zeroOrMore round)) (foldRest step)

/-- A number, or an expression in parentheses. -/
def factor : Written Lexeme :=
  .orElse (.custom .number) (.between (.token .leftParen) (.rule "expr") (.token .rightParen))

/-- A further factor. -/
def scaling : Written Lexeme := .right (.token .times) factor

/-- A product of factors. -/
def term : Written Lexeme := chained factor scaling multiply?

/-- A further term with its sign. -/
def shift : Written Lexeme := .both (.orElse (.token .plus) (.token .minus)) term

/-- A sum of terms. -/
def expr : Written Lexeme := chained term shift accumulate?

/-- Factors refer back to expressions. -/
def rules : WrittenRules Lexeme := [("expr", expr)]

/-- The parser of a part of the grammar. -/
def reader (g : Written Lexeme) : Parser (TokenCursor Lexeme) (Value Lexeme) :=
  Written.parser rules g

/-! ## Expressions -/

/-- The two operators of a sum. -/
inductive Sign where
  | plus
  | minus
  deriving DecidableEq

/-- The lexeme of a sign. -/
def Sign.lexeme : Sign → Lexeme
  | plus => .plus
  | minus => .minus

/-- A number added or subtracted. -/
def Sign.apply : Sign → Int → Int → Int
  | plus, a, b => a + b
  | minus, a, b => a - b

/-- Expressions over integers. -/
inductive Expr where
  | literal (n : Int)
  | sum (sign : Sign) (a b : Expr)
  | product (a b : Expr)
  /-- An expression in parentheses of its own, needed or not. -/
  | parens (e : Expr)
  deriving DecidableEq

/-- A list of lexemes in parentheses. -/
def enclose (ts : List Lexeme) : List Lexeme := .leftParen :: ts ++ [.rightParen]

/-- A list of lexemes, in parentheses if they are needed. -/
def encloseIf (needed : Bool) (ts : List Lexeme) : List Lexeme :=
  if needed then enclose ts else ts

namespace Expr

/-- The value of an expression. -/
def value : Expr → Int
  | literal n => n
  | sum sign a b => sign.apply a.value b.value
  | product a b => a.value * b.value
  | parens e => e.value

/-- Whether the value of the expression and of each of its parts is an integer of 64 bits. -/
def fits : Expr → Bool
  | literal n => Value.inRange n
  | sum sign a b => a.fits && b.fits && Value.inRange (sign.apply a.value b.value)
  | product a b => a.fits && b.fits && Value.inRange (a.value * b.value)
  | parens e => e.fits

/-- Whether the expression is a sum that no parentheses enclose. -/
def isSum : Expr → Bool
  | sum _ _ _ => true
  | _ => false

/-- Whether the expression is a sum or a product that no parentheses enclose. -/
def isCompound : Expr → Bool
  | sum _ _ _ | product _ _ => true
  | _ => false

/-- The lexemes of an expression. Parentheses are put around a sum that is an operand of a product
or the right operand of a sum, and around a product that is the right operand of a product. -/
def render : Expr → List Lexeme
  | literal n => [.number n]
  | sum sign a b => a.render ++ sign.lexeme :: encloseIf b.isSum b.render
  | product a b => encloseIf a.isSum a.render ++ .times :: encloseIf b.isCompound b.render
  | parens e => enclose e.render

end Expr

/-! ## Numbers and signs -/

theorem accepts_number (n : Int) (r : List Lexeme) :
    Accepts (reader (.custom .number)) [.number n] r (.int n) := by
  intro c hc
  obtain ⟨rest, hnext, -⟩ := StandsAt.next ⟨hc, rfl⟩
  refine ⟨rest, returns_ofFunction.mpr ?_, .cons hnext (.nil rest)⟩
  simp [Routine.run, hnext, Token.asInt?]

theorem refuses_number {t : Lexeme} (ht : Token.asInt? t = none) (r : List Lexeme) :
    Refuses (reader (.custom .number)) (t :: r) := by
  intro c hc
  obtain ⟨rest, hnext, -⟩ := StandsAt.next ⟨hc, rfl⟩
  refine ⟨.unexpected "number" (describe t) (Cursor.position c), returns_ofFunction.mpr ?_⟩
  simp [Routine.run, hnext, ht]

theorem accepts_lexeme (t : Lexeme) (r : List Lexeme) :
    Accepts (reader (.token t)) [t] r (.element t) := (accepts_token t r).map Value.element

theorem refuses_lexeme {t : Lexeme} {r : List Lexeme} (h : ∀ u, r.head? = some u → u ≠ t) :
    Refuses (reader (.token t)) r := (refuses_token h).map Value.element

theorem accepts_sign (sign : Sign) (r : List Lexeme) :
    Accepts (reader (.orElse (.token .plus) (.token .minus))) [sign.lexeme] r
      (.element sign.lexeme) := by
  cases sign with
  | plus => exact (accepts_lexeme .plus r).orElse _
  | minus => exact (refuses_lexeme (by simp [Sign.lexeme])).orElse_accepts (accepts_lexeme .minus r)

/-! ## Parts of an expression -/

/-- What follows is not one of the lexemes `stops`. -/
def Clear (stops r : List Lexeme) : Prop := ∀ t, r.head? = some t → t ∉ stops

theorem Clear.mono {stops stops' r : List Lexeme} (h : Clear stops r)
    (hsub : ∀ t ∈ stops', t ∈ stops) : Clear stops' r :=
  fun t ht hmem => h t ht (hsub t hmem)

theorem Clear.refuses {stops r : List Lexeme} {t : Lexeme} (h : Clear stops r) (ht : t ∈ stops) :
    Refuses (reader (.token t)) r := by
  refine refuses_lexeme fun u hu heq => h u hu ?_
  rwa [heq]

/-- The grammar `g` takes `ts` for the number `n`, before everything that is clear of `stops`. -/
def Takes (g : Written Lexeme) (stops ts : List Lexeme) (n : Int) : Prop :=
  ∀ r, Clear stops r → Accepts (reader g) ts r (.int n)

/-- The lexemes `ts` begin a chain, with the number `n` so far: whatever rounds stand behind them,
the chain takes `ts` and the rounds, and folds the whole as it would fold the rounds behind `n`. -/
def Continues (first round : Written Lexeme) (step : Int → Value Lexeme → Option Int)
    (stops ts : List Lexeme) (n : Int) : Prop :=
  ∀ us vs r, AcceptsEach (reader round) r us vs → Clear stops (us ++ r) →
    ∃ m ws, Accepts (reader (.both first (.zeroOrMore round))) (ts ++ us) r
        (.pair (.int m) (.list ws))
      ∧ ws.foldlM step m = vs.foldlM step n

section Chains

variable {first round : Written Lexeme} {step : Int → Value Lexeme → Option Int}
  {stops ts : List Lexeme} {n m : Int}

/-- A chain begins with its first part. -/
theorem Takes.continues (h : Takes first stops ts n) :
    Continues first round step stops ts n := by
  intro us vs r hrounds hclear
  have hfirst := h (us ++ r) hclear
  exact ⟨n, vs, (hfirst.both (hrounds.zeroOrMore.map Value.list)).map Value.ofPair, rfl⟩

/-- A chain is continued by a round behind it, whose value is taken into the number so far. -/
theorem Continues.snoc (h : Continues first round step stops ts n) (us : List Lexeme)
    (w : Value Lexeme) (hus : us ≠ [])
    (hclear : ∀ r, Clear stops (us ++ r))
    (hround : ∀ r, Clear stops r → Accepts (reader round) us r w) (hstep : step n w = some m) :
    Continues first round step stops (ts ++ us) m := by
  intro us' vs r hrounds hrest
  have heach : AcceptsEach (reader round) r (us ++ us') (w :: vs) :=
    .cons hus (hround (us' ++ r) hrest) hrounds
  have hclear' : Clear stops (us ++ us' ++ r) := by
    rw [List.append_assoc]
    exact hclear (us' ++ r)
  obtain ⟨k, ws, haccepts, hfold⟩ := h _ _ r heach hclear'
  refine ⟨k, ws, by rwa [List.append_assoc], ?_⟩
  calc ws.foldlM step k = (w :: vs).foldlM step n := hfold
    _ = (step n w).bind fun total => vs.foldlM step total := List.foldlM_cons
    _ = vs.foldlM step m := by rw [hstep, Option.bind_some]

/-- A chain ends before what is no further round, and its value is the number so far. -/
theorem Continues.takes {stops' : List Lexeme} (h : Continues first round step stops ts n)
    (hends : ∀ r, Clear stops' r → Clear stops r ∧ Refuses (reader round) r) :
    Takes (chained first round step) stops' ts n := by
  intro r hr
  obtain ⟨hclear, hrefuses⟩ := hends r hr
  obtain ⟨k, ws, haccepts, hfold⟩ := h [] [] r (.nil hrefuses) hclear
  rw [List.append_nil] at haccepts
  have hvalue : foldRest step (.pair (.int k) (.list ws)) = .ok (.int n) := by
    rw [foldRest, hfold, List.foldlM_nil]
    rfl
  have hmapped := haccepts.map (foldRest step)
  rw [hvalue] at hmapped
  exact hmapped.evaluate

end Chains

/-! ## The three levels -/

theorem takes_literal (n : Int) : Takes factor [] [.number n] n :=
  fun r _ => (accepts_number n r).orElse _

section Levels

variable {ts us : List Lexeme} {n m : Int}

/-- An expression in parentheses is a factor. -/
theorem Takes.enclose (h : Takes expr [.plus, .minus, .times] ts n) :
    Takes factor [] (enclose ts) n := by
  intro r _
  have hclosing : Clear [.plus, .minus, .times] ([.rightParen] ++ r) := by simp [Clear]
  have hinner : Accepts (reader (.rule "expr")) ts ([.rightParen] ++ r) (.int n) :=
    Grammar.accepts_rule rfl (h _ hclosing)
  have hbetween := (accepts_lexeme .leftParen _).between hinner (accepts_lexeme .rightParen r)
  exact (refuses_number rfl _).orElse_accepts hbetween

/-- A factor behind a product makes a longer product. -/
theorem Continues.scale (h : Continues factor scaling multiply? [] ts n)
    (hfactor : Takes factor [] us m) (hrange : Value.inRange (n * m) = true) :
    Continues factor scaling multiply? [] (ts ++ .times :: us) (n * m) := by
  refine h.snoc (.times :: us) (.int m) (by simp) (by simp [Clear]) ?_ ?_
  · intro r hr
    exact (accepts_lexeme .times (us ++ r)).right (hfactor r hr)
  · exact Value.checked?_of_inRange hrange

/-- A product is a term. -/
theorem Continues.takes_term (h : Continues factor scaling multiply? [] ts n) :
    Takes term [.times] ts n := by
  refine Continues.takes h fun r hr => ⟨by simp [Clear], ?_⟩
  exact (hr.refuses List.mem_cons_self).right _

/-- A term behind a sum makes a longer sum. -/
theorem Continues.add (sign : Sign) (h : Continues term shift accumulate? [.times] ts n)
    (hterm : Takes term [.times] us m) (hrange : Value.inRange (sign.apply n m) = true) :
    Continues term shift accumulate? [.times] (ts ++ sign.lexeme :: us)
      (sign.apply n m) := by
  refine h.snoc (sign.lexeme :: us) (.pair (.element sign.lexeme) (.int m)) (by simp) ?_ ?_ ?_
  · intro r
    cases sign <;> simp [Clear, Sign.lexeme]
  · intro r hr
    exact ((accepts_sign sign (us ++ r)).both (hterm r hr)).map Value.ofPair
  · cases sign with
    | plus => exact Value.checked?_of_inRange hrange
    | minus => exact Value.checked?_of_inRange hrange

/-- A sum is an expression. -/
theorem Continues.takes_expr (h : Continues term shift accumulate? [.times] ts n) :
    Takes expr [.plus, .minus, .times] ts n := by
  refine Continues.takes h fun r hr => ⟨hr.mono (by simp), ?_⟩
  have hplus : Refuses (reader (.token .plus)) r := hr.refuses (by simp)
  have hminus : Refuses (reader (.token .minus)) r := hr.refuses (by simp)
  exact ((hplus.orElse hminus).both _).map Value.ofPair

end Levels

/-! ## Rendered expressions are read back -/

/-- What the levels of the grammar make of a rendered expression: a factor if it is a number or in
parentheses, the beginning of a product if it is no sum, and in any case the beginning of a sum. -/
structure ReadBack (e : Expr) : Prop where
  factor : e.isCompound = false → Takes factor [] e.render e.value
  product : e.isSum = false → Continues Arithmetic.factor scaling multiply? [] e.render e.value
  sum : Continues term shift accumulate? [.times] e.render e.value

namespace ReadBack

variable {e : Expr}

/-- What is a factor is everything else as well. -/
theorem of_factor (h : Takes Arithmetic.factor [] e.render e.value) : ReadBack e where
  factor _ := h
  product _ := h.continues
  sum := h.continues.takes_term.continues

/-- An operand of a product in the place of a factor. -/
theorem takes_factor (h : ReadBack e) :
    Takes Arithmetic.factor [] (encloseIf e.isCompound e.render) e.value := by
  cases hcompound : e.isCompound with
  | false => exact h.factor hcompound
  | true => exact h.sum.takes_expr.enclose

/-- The first operand of a product. -/
theorem continues_product (h : ReadBack e) :
    Continues Arithmetic.factor scaling multiply? [] (encloseIf e.isSum e.render) e.value := by
  cases hsum : e.isSum with
  | false => exact h.product hsum
  | true => exact h.sum.takes_expr.enclose.continues

end ReadBack

/-- Every expression that stays in range is read back, by induction over the tree: each operator is
the step of its level, applied to operands with the parentheses that they need there. -/
theorem readBack (e : Expr) (hfits : e.fits = true) : ReadBack e := by
  induction e with
  | literal n => exact .of_factor (takes_literal n)
  | parens e ih => exact .of_factor (ih hfits).sum.takes_expr.enclose
  | product a b iha ihb =>
      simp only [Expr.fits, Bool.and_eq_true] at hfits
      obtain ⟨⟨ha, hb⟩, hrange⟩ := hfits
      have hproduct := (iha ha).continues_product.scale (ihb hb).takes_factor hrange
      refine ⟨fun hcompound => ?_, fun _ => hproduct, hproduct.takes_term.continues⟩
      cases hcompound
  | sum sign a b iha ihb =>
      simp only [Expr.fits, Bool.and_eq_true] at hfits
      obtain ⟨⟨ha, hb⟩, hrange⟩ := hfits
      have hterm := (ihb hb).continues_product.takes_term
      refine ⟨fun hcompound => ?_, fun hsum => ?_, (iha ha).sum.add sign hterm hrange⟩
      · cases hcompound
      · cases hsum

/-- **The grammar evaluates every expression.** Let an expression be written with the parentheses
that it needs and any others, and let no result on the way to its value leave the range of 64 bits.
Before everything that is empty or does not go on with an operator, the parser succeeds with the
value of the expression and leaves what follows. -/
theorem value_of_render (e : Expr) (hfits : e.fits = true) (r : List Lexeme)
    (hr : ∀ t, r.head? = some t → t ∉ [Lexeme.plus, .minus, .times]) :
    ∃ rest, (Written.parser rules expr).Returns (TokenCursor.start (e.render ++ r).toArray)
        (.success (.int e.value) rest)
      ∧ rest.remaining = r.toArray := by
  have hstart : LawfulCursor.upcoming (TokenCursor.start (e.render ++ r).toArray)
      = e.render ++ r := LawfulStart.upcoming_start _
  obtain ⟨rest, hreturns, hreads⟩ := (readBack e hfits).sum.takes_expr r hr _ hstart
  refine ⟨rest, hreturns, Array.toList_inj.mp ?_⟩
  exact hreads.upcoming_of_append hstart

/-- Ten less four, less two times the sum of one and two, before a parenthesis that closes nothing:
subtraction is taken from the left, and a number may have parentheses of its own. -/
theorem value_of_render_nested :
    let e : Expr := .sum .minus (.sum .minus (.literal 10) (.literal 4))
      (.product (.parens (.literal 2)) (.sum .plus (.literal 1) (.literal 2)))
    e.fits = true
    ∧ e.render = [.number 10, .minus, .number 4, .minus, .leftParen, .number 2, .rightParen, .times,
        .leftParen, .number 1, .plus, .number 2, .rightParen]
    ∧ ∃ rest, (Written.parser rules expr).Returns
        (TokenCursor.start (e.render ++ [Lexeme.rightParen, .plus]).toArray) (.success (.int 0) rest)
      ∧ rest.remaining = #[Lexeme.rightParen, .plus] := by
  intro e
  have hfits : e.fits = true := by decide
  exact ⟨hfits, rfl, value_of_render e hfits [.rightParen, .plus] (by simp)⟩

end ParserKit.Arithmetic

import Mathlib.Data.List.Forall2
import ParserKit.Grammar.Parse
import ParserKit.Proofs.Acceptance
import ParserKit.Value.Call

set_option autoImplicit false

/-! # Nested lists

A grammar of nested lists of integers: a value is a numeral, or values with commas between them in
brackets. What belongs to the notation is said without the grammar, by a relation between a nested
list and its texts (`Spells`). The grammar reads exactly that (`value_success_iff_spells`).

The two directions have a proof each. That a text of the notation is read goes by induction over
the nested list (`Nested.taken`); that nothing else is read goes by induction over what the
rules return (`sound_value`), since at first nothing is known about the text. Numerals need only
the first: the digits ahead are all that a numeral can take, and a parser returns one outcome.
-/

namespace ParserKit.NestedLists

open Cursor LawfulCursor ParserKit.Parser

/-! ## The grammar -/

/-- The digit that a character stands for, as a number. -/
def digitValue : Value Char → Value Char
  | .element d => .int ((Value.digit? d).getD 0)
  | _ => .illTyped

/-- The number that a list of digits stands for, which has no value if it leaves the range. -/
def numeralValue : Value Char → Except Fault (Value Char)
  | .list items => .ok (.ofInt? (Value.decimal? (items.map digitValue)))
  | _ => .ok .illTyped

/-- One digit. -/
def digit : Written Char := .satisfy "digit" Char.isDigit

/-- A number in decimal digits. -/
def numeral : Written Char := .map (.oneOrMore digit) numeralValue

/-- Values with commas between them, or nothing. -/
def contents : Written Char :=
  .optional (.separatedList (.rule "value") (.token ',')) (.list [])

/-- A list in brackets. -/
def bracketed : Written Char := .between (.token '[') contents (.token ']')

/-- A numeral or a list. -/
def value : Written Char := .orElse numeral bracketed

/-- Lists refer back to values. -/
def rules : WrittenRules Char := [("value", value)]

/-- The parser of a part of the grammar. -/
def reader (g : Written Char) : Parser TextCursor (Value Char) := Written.parser rules g

/-! ## The notation -/

/-- Lists of integers and of such lists. -/
inductive Nested where
  | int (n : Int64)
  | list (items : List Nested)

/-- What follows does not begin with a digit. -/
def NoDigit (r : List Char) : Prop := ∀ d, r.head? = some d → d.isDigit = false

namespace Nested

/-- Induction over a nested list, with the hypothesis for every item. -/
@[elab_as_elim, induction_eliminator]
theorem induct {motive : Nested → Prop} (int : ∀ n, motive (.int n))
    (list : ∀ items, (∀ v ∈ items, motive v) → motive (.list items)) : ∀ v, motive v
  | .int n => int n
  | .list items => list items fun v _ => induct int list v

/-- A nested list as the value of a grammar. -/
def toValue : Nested → Value Char
  | int n => .int n.toInt
  | list items => .list (items.map fun v => v.toValue)

@[simp] theorem toValue_int (n : Int64) : (int n).toValue = .int n.toInt := by rw [toValue]

@[simp] theorem toValue_list (items : List Nested) :
    (list items).toValue = .list (items.map toValue) := by rw [toValue]

/-- Only an integer has an integer for its value. -/
theorem eq_int_of_toValue {v : Nested} {n? : Option Int} (h : v.toValue = .ofInt? n?) :
    ∃ n, v = int n ∧ n? = some n.toInt := by
  cases v with
  | int n =>
      rw [toValue_int] at h
      cases n? with
      | none => cases h
      | some m =>
          cases h
          exact ⟨n, rfl, rfl⟩
  | list items =>
      rw [toValue_list] at h
      cases n? <;> cases h

/-- Only a list has a list for its value. -/
theorem eq_list_of_toValue {v : Nested} {vs : List (Value Char)} (h : v.toValue = .list vs) :
    ∃ items, v = list items ∧ items.map toValue = vs := by
  cases v with
  | int n =>
      rw [toValue_int] at h
      cases h
  | list items =>
      rw [toValue_list] at h
      exact ⟨items, rfl, Value.list.inj h⟩

/-- Nested lists with the same value are the same. -/
theorem toValue_injective {v w : Nested} (h : v.toValue = w.toValue) : v = w := by
  induction v generalizing w with
  | int n =>
      have hint : w.toValue = .ofInt? (some n.toInt) := by rw [← h, toValue_int, Value.ofInt?]
      obtain ⟨m, rfl, hm⟩ := eq_int_of_toValue hint
      rw [Int64.toInt_inj.mp (Option.some.inj hm)]
  | list items ih =>
      obtain ⟨items', rfl, hitems⟩ := eq_list_of_toValue (h.symm.trans (toValue_list items))
      clear h
      rw [list.injEq]
      induction items generalizing items' with
      | nil => exact (List.map_eq_nil_iff.mp hitems).symm
      | cons v items ihs =>
          obtain ⟨hv, hrest⟩ := List.forall_mem_cons.mp ih
          obtain ⟨w, items', rfl, hw, hmap⟩ := List.map_eq_cons_iff.mp hitems
          rw [hv hw.symm, ihs hrest items' hmap]

/-- The texts of a nested list. The digits of a number may begin with zeros, and there is nothing
but single commas between the items of a list. -/
inductive Spells : Nested → List Char → Prop where
  | numeral {n : Int64} {ds : List Char} (hne : ds ≠ []) (hdigits : ∀ d ∈ ds, d.isDigit = true)
      (hvalue : (Nat.ofDigitChars 10 ds 0 : Int) = n.toInt) : Spells (int n) ds
  | brackets {items : List Nested} {ts : List (List Char)} (h : List.Forall₂ Spells items ts) :
      Spells (list items) ('[' :: [','].intercalate ts ++ [']'])

/-- The text of a nested list ends where `r` begins. Only a number could go on. -/
def EndsBefore : Nested → List Char → Prop
  | int _, r => NoDigit r
  | list _, _ => True

/-- No integer in a nested list is negative. -/
def Nonnegative : Nested → Prop
  | int n => 0 ≤ n.toInt
  | list items => ∀ v ∈ items, v.Nonnegative

/-- The canonical text of a nested list, in which no number has superfluous zeros. -/
def render : Nested → List Char
  | int n => Nat.toDigits 10 n.toInt.toNat
  | list items => '[' :: [','].intercalate (items.map fun v => v.render) ++ [']']

end Nested

/-! ## Numbers -/

section Numbers

variable {ds : List Char}

/-- A number becomes no smaller by further digits. -/
theorem le_ofDigitChars (ds : List Char) (n : Nat) : n ≤ Nat.ofDigitChars 10 ds n := by
  induction ds generalizing n with
  | nil => exact Nat.le_refl n
  | cons d ds ih =>
      rw [Nat.ofDigitChars_cons]
      have hle := ih (10 * n + (d.toNat - '0'.toNat))
      omega

/-- A number that is checked becomes an integer of 64 bits exactly if it is that integer. -/
theorem checked?_eq_toInt {m : Int} {n : Int64} :
    Value.checked? m = some n.toInt ↔ m = n.toInt := by
  constructor
  · intro h
    rw [Value.checked?] at h
    split at h
    · exact Option.some.inj h
    · cases h
  · rintro rfl
    have hle := n.le_toInt
    have hlt := n.toInt_lt
    exact Value.checked?_of_inRange (Value.inRange_iff.mpr ⟨by omega, by omega⟩)

/-- Checking before a digit is added as well as behind it makes no difference: what is in range
with the digit was in range without it. -/
theorem checked?_digit (n k : Nat) :
    ((Value.checked? (n * 10 : Int)).bind fun shifted => Value.checked? (shifted + k))
      = Value.checked? ((10 * n + k : Nat) : Int) := by
  have hsum : (n * 10 : Int) + k = ((10 * n + k : Nat) : Int) := by
    push_cast
    omega
  by_cases hshift : Value.inRange (n * 10 : Int) = true
  · rw [Value.checked?_of_inRange hshift, Option.bind_some, hsum]
  · have hrange : ¬ Value.inRange ((10 * n + k : Nat) : Int) = true := by
      rw [Value.inRange_iff] at hshift ⊢
      omega
    rw [Value.checked?_of_not_inRange hshift, Value.checked?_of_not_inRange hrange,
      Option.bind_none]

theorem digitValue_of_isDigit {d : Char} (h : d.isDigit = true) :
    digitValue (.element d) = .int ((d.toNat - '0'.toNat : Nat) : Int) := by
  have hle := (Char.isDigit_iff_toNat.mp h).1
  rw [digitValue, Value.digit?, if_pos h, Option.getD_some, Int.ofNat_sub hle]

/-- Digits taken in one after the other, with every result on the way checked, give the number that
they stand for if that number is in range: the results on the way are smaller. -/
theorem foldlM_digits {step : Int → Value Char → Option Int}
    (hstep : ∀ total d : Int, step total (.int d)
      = (Value.checked? (total * 10)).bind fun shifted => Value.checked? (shifted + d))
    (hdigits : ∀ d ∈ ds, d.isDigit = true) (n : Nat) (hn : Value.inRange n = true) :
    (ds.map fun d => digitValue (.element d)).foldlM step (n : Int)
      = Value.checked? (Nat.ofDigitChars 10 ds n : Nat) := by
  induction ds generalizing n with
  | nil =>
      rw [Nat.ofDigitChars_nil, Value.checked?_of_inRange hn]
      rfl
  | cons d ds ih =>
      obtain ⟨hd, hds⟩ := List.forall_mem_cons.mp hdigits
      rw [List.map_cons, List.foldlM_cons, digitValue_of_isDigit hd, hstep, checked?_digit,
        Nat.ofDigitChars_cons]
      generalize 10 * n + (d.toNat - '0'.toNat) = m
      by_cases hm : Value.inRange (m : Int) = true
      · rw [Value.checked?_of_inRange hm]
        exact ih hds m hm
      · have hle := le_ofDigitChars ds m
        have hend : ¬ Value.inRange ((Nat.ofDigitChars 10 ds m : Nat) : Int) = true := by
          rw [Value.inRange_iff] at hm ⊢
          omega
        rw [Value.checked?_of_not_inRange hm, Value.checked?_of_not_inRange hend]
        rfl

theorem numeralValue_of_digits (hdigits : ∀ d ∈ ds, d.isDigit = true) :
    numeralValue (.list (ds.map Value.element))
      = .ok (.ofInt? (Value.checked? (Nat.ofDigitChars 10 ds 0 : Nat))) := by
  have hfold : Value.decimal? (ds.map fun d => digitValue (.element d))
      = Value.checked? (Nat.ofDigitChars 10 ds 0 : Nat) :=
    foldlM_digits (fun _ _ => rfl) hdigits 0 rfl
  rw [numeralValue, List.map_map, ← hfold]
  rfl

end Numbers

/-! ## Numerals -/

section Numerals

variable {ds r : List Char}

theorem acceptsEach_digit (hdigits : ∀ d ∈ ds, d.isDigit = true) (hr : NoDigit r) :
    AcceptsEach (reader digit) r ds (ds.map Value.element) := by
  induction ds with
  | nil => exact .nil ((refuses_satisfy hr).map Value.element)
  | cons d ds ih =>
      obtain ⟨hd, hds⟩ := List.forall_mem_cons.mp hdigits
      exact .cons (List.cons_ne_nil d []) ((accepts_satisfy hd).map Value.element) (ih hds)

/-- A numeral takes digits up to where they end. -/
theorem accepts_numeral (hne : ds ≠ []) (hdigits : ∀ d ∈ ds, d.isDigit = true) (hr : NoDigit r) :
    Accepts (reader numeral) ds r
      (.ofInt? (Value.checked? (Nat.ofDigitChars 10 ds 0 : Nat))) := by
  have hlist : Accepts (reader (.oneOrMore digit)) ds r (.list (ds.map Value.element)) := by
    cases ds with
    | nil => exact absurd rfl hne
    | cons d ds => exact (acceptsEach_digit hdigits hr).oneOrMore.map Value.list
  have hmapped := hlist.map numeralValue
  rw [numeralValue_of_digits hdigits] at hmapped
  exact hmapped.evaluate

theorem refuses_numeral (hr : NoDigit r) : Refuses (reader numeral) r :=
  ((((refuses_satisfy hr).map Value.element).oneOrMore.map Value.list).map numeralValue).evaluate

/-- Every text falls into the digits that it begins with and the rest. -/
theorem exists_digits (ts : List Char) :
    ∃ ds r, ts = ds ++ r ∧ (∀ d ∈ ds, d.isDigit = true) ∧ NoDigit r := by
  refine ⟨ts.takeWhile Char.isDigit, ts.dropWhile Char.isDigit,
    List.takeWhile_append_dropWhile.symm, List.all_eq_true.mp List.all_takeWhile, ?_⟩
  intro d hd
  have hstop := List.head?_dropWhile_not Char.isDigit ts
  rwa [hd] at hstop

/-- What a numeral reads are all the digits that stand ahead. -/
theorem numeral_success {c rest : TextCursor} {v : Value Char}
    (h : (reader numeral).Returns c (.success v rest)) :
    ∃ ds, Reads c ds rest ∧ ds ≠ [] ∧ (∀ d ∈ ds, d.isDigit = true) ∧ NoDigit (upcoming rest)
      ∧ v = .ofInt? (Value.checked? (Nat.ofDigitChars 10 ds 0 : Nat)) := by
  obtain ⟨ds, r, hsplit, hdigits, hr⟩ := exists_digits (upcoming c)
  by_cases hne : ds = []
  -- Without a digit the numeral would have failed.
  · rw [hne] at hsplit
    obtain ⟨e, he⟩ := refuses_numeral hr c hsplit
    cases h.unique he
  · obtain ⟨rest', hreturns, hreads⟩ := accepts_numeral hne hdigits hr c hsplit
    obtain ⟨hv, rfl⟩ := Outcome.success.inj (h.unique hreturns)
    refine ⟨ds, hreads, hne, hdigits, ?_, hv⟩
    rwa [hreads.upcoming_of_append hsplit]

end Numerals

/-! ## The notation is read -/

/-- Texts with a comma before each of them. -/
def afterCommas (ts : List (List Char)) : List Char := ts.flatMap fun t => ',' :: t

theorem intercalate_cons (t : List Char) (ts : List (List Char)) :
    [','].intercalate (t :: ts) = t ++ afterCommas ts := by
  induction ts generalizing t with
  | nil => simp [afterCommas]
  | cons u ts ih =>
      rw [List.intercalate_cons_cons, ih u]
      simp [afterCommas]

/-- An item ends before a comma and before the closing bracket. -/
theorem endsBefore_afterCommas (v : Nested) (ts : List (List Char)) (r : List Char) :
    v.EndsBefore (afterCommas ts ++ ']' :: r) := by
  cases v with
  | list items => trivial
  | int n => cases ts <;> simp [Nested.EndsBefore, NoDigit, afterCommas]

theorem accepts_char (t : Char) (r : List Char) :
    Accepts (reader (.token t)) [t] r (.element t) := (accepts_token t r).map Value.element

theorem refuses_char {t u : Char} (h : u ≠ t) (r : List Char) :
    Refuses (reader (.token t)) (u :: r) := by
  refine (refuses_token fun w hw => ?_).map Value.element
  rwa [← Option.some.inj hw]

/-- There is no value where a list ends. -/
theorem refuses_value (r : List Char) : Refuses (reader value) (']' :: r) := by
  have hnumeral : Refuses (reader numeral) (']' :: r) := refuses_numeral (by simp [NoDigit])
  have hopening : Refuses (reader (.token '[')) (']' :: r) := refuses_char (by decide) r
  exact hnumeral.orElse (hopening.between _ _)

/-- Every text of the nested list `v` is taken where it ends, and gives `v` back. -/
def Nested.Taken (v : Nested) : Prop :=
  ∀ t r, v.Spells t → v.EndsBefore r → Accepts (reader value) t r v.toValue

/-- In a list, an item is taken before the ones that follow and before the closing bracket. -/
theorem Nested.Taken.item {v : Nested} {t : List Char} (hv : v.Taken) (hspells : v.Spells t)
    (ts : List (List Char)) (r : List Char) :
    Accepts (reader (.rule "value")) t (afterCommas ts ++ ']' :: r) v.toValue :=
  Grammar.accepts_rule rfl (hv t _ hspells (endsBefore_afterCommas v ts r))

section Items

variable {items : List Nested} {ts : List (List Char)}

/-- The items behind the first one are taken with their commas, up to the closing bracket. -/
theorem acceptsEach_further (hspells : List.Forall₂ Nested.Spells items ts)
    (htaken : ∀ v ∈ items, v.Taken) (r : List Char) :
    AcceptsEach ((reader (.token ',')).right (reader (.rule "value"))) (']' :: r) (afterCommas ts)
      (items.map Nested.toValue) := by
  induction hspells with
  | nil =>
      have hcomma : Refuses (reader (.token ',')) (']' :: r) := refuses_char (by decide) r
      exact .nil (hcomma.right _)
  | @cons v t items ts hv _ ih =>
      obtain ⟨hfirst, hfurther⟩ := List.forall_mem_cons.mp htaken
      have hround := (accepts_char ',' _).right (hfirst.item hv ts r)
      exact .cons (List.cons_ne_nil ',' t) hround (ih hfurther)

theorem accepts_contents (hspells : List.Forall₂ Nested.Spells items ts)
    (htaken : ∀ v ∈ items, v.Taken) (r : List Char) :
    Accepts (reader contents) ([','].intercalate ts) (']' :: r)
      (.list (items.map Nested.toValue)) := by
  cases hspells with
  | nil =>
      have hvalue : Refuses (reader (.rule "value")) (']' :: r) :=
        Grammar.refuses_rule rfl (refuses_value r)
      exact ((hvalue.separatedList _).map Value.list).optional (.list [])
  | @cons v t items ts hv hrest =>
      obtain ⟨hfirst, hfurther⟩ := List.forall_mem_cons.mp htaken
      have hlist := (hfirst.item hv ts r).separatedList (acceptsEach_further hrest hfurther r)
      rw [intercalate_cons]
      exact (hlist.map Value.list).optional (.list [])

end Items

theorem Nested.taken (v : Nested) : v.Taken := by
  induction v with
  | int n =>
      rintro t r ⟨hne, hdigits, hvalue⟩ hends
      have hnumeral := accepts_numeral hne hdigits hends
      rw [checked?_eq_toInt.mpr hvalue] at hnumeral
      rw [toValue_int]
      exact hnumeral.orElse _
  | list items ih =>
      rintro t r hspells -
      cases hspells with
      | @brackets _ ts hitems =>
          have hbracket : NoDigit ('[' :: ([','].intercalate ts ++ [']'] ++ r)) := by
            simp [NoDigit]
          have hlist := (accepts_char '[' _).between (accepts_contents hitems ih r) (accepts_char ']' r)
          rw [toValue_list]
          exact (refuses_numeral hbracket).orElse_accepts hlist

/-! ## Nothing else is read -/

/-- Whatever nested list the parser `p` returns, what it has read is a text of it. -/
def Sound (p : Parser TextCursor (Value Char)) : Prop :=
  ∀ c rest v, p.Returns c (.success v.toValue rest) →
    ∃ t, Reads c t rest ∧ Nested.Spells v t ∧ v.EndsBefore (upcoming rest)

theorem sound_numeral : Sound (reader numeral) := by
  intro c rest v h
  obtain ⟨ds, hreads, hne, hdigits, hends, hv⟩ := numeral_success h
  obtain ⟨n, rfl, hn⟩ := Nested.eq_int_of_toValue hv
  exact ⟨ds, hreads, .numeral hne hdigits (checked?_eq_toInt.mp hn), hends⟩

theorem reads_of_char {t : Char} {c rest : TextCursor} {v : Value Char}
    (h : ((Parser.token t).map Value.element).Returns c (.success v rest)) : Reads c [t] rest := by
  obtain ⟨u, hu, -⟩ := map_success.mp h
  obtain ⟨hnext, htest⟩ := satisfy_success.mp hu
  rw [of_decide_eq_true htest] at hnext
  exact .cons hnext (.nil rest)

section Items

variable {item : Parser TextCursor (Value Char)} {c rest : TextCursor}

/-- What the rounds of a list have read are its further items with their commas. -/
theorem Sound.further (hitem : Sound item) {vs : List (Value Char)}
    (h : SeparatedRounds ((Parser.token ',').map Value.element) item c vs rest)
    (items : List Nested) (hvs : items.map Nested.toValue = vs) :
    ∃ ts, Reads c (afterCommas ts) rest ∧ List.Forall₂ Nested.Spells items ts := by
  -- A comma without an item behind it is given back, so it does not belong to what was read.
  induction h generalizing items with
  | noSeparator | noItem =>
      rw [List.map_eq_nil_iff.mp hvs]
      exact ⟨[], .nil _, .nil⟩
  | still hs hi hpos =>
      obtain ⟨v, items, rfl, rfl, hitems⟩ := List.map_eq_cons_iff.mp hvs
      obtain ⟨t, hreads, hspells, -⟩ := hitem _ _ v hi
      rw [List.map_eq_nil_iff.mp hitems]
      refine ⟨[t], ?_, .cons hspells .nil⟩
      simpa [afterCommas] using (reads_of_char hs).append hreads
  | again hs hi hpos hrest ih =>
      obtain ⟨v, items, rfl, rfl, hitems⟩ := List.map_eq_cons_iff.mp hvs
      obtain ⟨t, hreads, hspells, -⟩ := hitem _ _ v hi
      obtain ⟨ts, hreads', hspells'⟩ := ih items hitems
      exact ⟨t :: ts, ((reads_of_char hs).append hreads).append hreads', .cons hspells hspells'⟩

/-- What stands between the brackets is a list, and its items are what was read. -/
theorem Sound.contents (hitem : Sound item) {v : Nested}
    (h : (((item.separatedList ((Parser.token ',').map Value.element)).map Value.list).optional
      (.list [])).Returns c (.success v.toValue rest)) :
    ∃ items ts, v = .list items ∧ Reads c ([','].intercalate ts) rest
      ∧ List.Forall₂ Nested.Spells items ts := by
  obtain hlist | ⟨e, -, hnil, rfl⟩ := optional_success.mp h
  · obtain ⟨vs, hvs, hv⟩ := map_success.mp hlist
    obtain ⟨first, mid, further, hfirst, hfurther, rfl⟩ := separatedList_success.mp hvs
    obtain ⟨_, rfl, hmap⟩ := Nested.eq_list_of_toValue hv.symm
    obtain ⟨w, items, rfl, rfl, hitems⟩ := List.map_eq_cons_iff.mp hmap
    obtain ⟨t, hreads, hspells, -⟩ := hitem _ _ w hfirst
    obtain ⟨ts, hreads', hspells'⟩ := hitem.further hfurther items hitems
    refine ⟨w :: items, t :: ts, rfl, ?_, .cons hspells hspells'⟩
    rw [intercalate_cons]
    exact hreads.append hreads'
  · obtain ⟨items, rfl, hitems⟩ := Nested.eq_list_of_toValue hnil
    rw [List.map_eq_nil_iff.mp hitems]
    exact ⟨[], [], rfl, .nil _, .nil⟩

end Items

/-- One unfolding of the rule: it is sound if its references are. -/
theorem Sound.value {env : String → Parser TextCursor (Value Char)} (henv : Sound (env "value")) :
    Sound (value.denote Routine.run env) := by
  intro c rest v h
  obtain hnumeral | ⟨-, -, hbracketed⟩ := orElse_success.mp h
  · exact sound_numeral c rest v hnumeral
  · obtain ⟨_, mid, _, mid', hopening, hcontents, hclosing⟩ := between_success.mp hbracketed
    obtain ⟨items, ts, rfl, hreads, hspells⟩ := henv.contents hcontents
    have hall := ((reads_of_char hopening).append hreads).append (reads_of_char hclosing)
    exact ⟨_, hall, .brackets hspells, trivial⟩

/-- Whatever the grammar returns is spelled by what it has read: the induction is over the depth to
which the rule refers to itself. -/
theorem sound_value : Sound (reader value) := by
  intro c rest v h
  refine Grammar.success_induction (P := fun g => g = value)
    (R := fun _ c w rest => ∀ v : Nested, v.toValue = w →
      ∃ t, Reads c t rest ∧ v.Spells t ∧ v.EndsBefore (upcoming rest)) ?_ rfl h v rfl
  rintro env henv g rfl c w rest hreturns v rfl
  refine Sound.value ?_ c rest v hreturns
  intro c rest v hname
  obtain ⟨body, hbody, hbody_sound⟩ := henv "value" c _ rest hname
  exact hbody_sound (Option.some.inj hbody).symm v rfl

/-! ## The language of the grammar -/

namespace Nested

theorem endsBefore_nil (v : Nested) : v.EndsBefore [] := by
  cases v with
  | int n => simp [EndsBefore, NoDigit]
  | list items => trivial

/-- The canonical text is a text. -/
theorem spells_render (v : Nested) (hv : v.Nonnegative) : v.Spells v.render := by
  induction v with
  | int n =>
      rw [Nonnegative] at hv
      rw [render]
      refine .numeral Nat.toDigits_ne_nil (fun d hd => Nat.isDigit_of_mem_toDigits ?_ ?_ hd) ?_
      · decide
      · decide
      · rw [Nat.ofDigitChars_ten_toDigits, Int.toNat_of_nonneg hv]
  | list items ih =>
      rw [Nonnegative] at hv
      rw [render]
      refine .brackets (List.forall₂_map_right_iff.mpr (List.forall₂_same.mpr ?_))
      exact fun v hmem => ih v hmem (hv v hmem)

end Nested

/-- The grammar takes a text off a source exactly if it is a text of what is returned and ends
there. -/
theorem value_returns_iff (v : Nested) (t r : String) :
    (∃ rest, (reader value).Returns (TextCursor.start (t ++ r)) (.success v.toValue rest)
        ∧ rest.remaining = r)
      ↔ v.Spells t.toList ∧ v.EndsBefore r.toList := by
  have hstart : upcoming (TextCursor.start (t ++ r)) = t.toList ++ r.toList := by
    rw [← String.toList_append]
    exact LawfulStart.upcoming_start (t ++ r)
  constructor
  · rintro ⟨rest, hreturns, rfl⟩
    obtain ⟨t', hreads, hspells, hends⟩ := sound_value _ rest v hreturns
    have ht : t' ++ upcoming rest = t.toList ++ upcoming rest :=
      hreads.upcoming_eq.symm.trans hstart
    rw [← List.append_cancel_right ht]
    exact ⟨hspells, hends⟩
  · rintro ⟨hspells, hends⟩
    obtain ⟨rest, hreturns, hreads⟩ := v.taken _ _ hspells hends _ hstart
    exact ⟨rest, hreturns, String.toList_inj.mp (hreads.upcoming_of_append hstart)⟩

/-- A text of the notation that is all of the source is read to its end. -/
theorem value_reads_all {v : Nested} {t : String} (h : v.Spells t.toList) :
    ∃ rest, (reader value).Returns (TextCursor.start t) (.success v.toValue rest)
      ∧ rest.remaining = "" := by
  have hall := (value_returns_iff v t "").mpr ⟨h, v.endsBefore_nil⟩
  rwa [String.append_empty] at hall

/-- No text stands for two nested lists. -/
theorem Nested.Spells.unique {v w : Nested} {t : String} (hv : v.Spells t.toList)
    (hw : w.Spells t.toList) : v = w := by
  obtain ⟨_, hreturns, -⟩ := value_reads_all hv
  obtain ⟨_, hreturns', -⟩ := value_reads_all hw
  exact Nested.toValue_injective (Outcome.success.inj (hreturns.unique hreturns')).1

/-- **The grammar accepts exactly the notation.** On a text `t` followed by `r`, the parser succeeds
with the nested list `v` and leaves `r` exactly if `t` is a text of `v` and, where `v` is an integer,
`r` does not go on with a digit. In particular every text of `v` is read to its end and gives `v`
back, and so does the canonical one if no integer in `v` is negative. -/
theorem value_success_iff_spells (v : Nested) (t r : String) :
    ((∃ rest, (Written.parser rules value).Returns (TextCursor.start (t ++ r))
          (.success v.toValue rest)
        ∧ rest.remaining = r)
      ↔ v.Spells t.toList ∧ v.EndsBefore r.toList)
    ∧ (v.Spells t.toList →
        ∃ rest, (Written.parser rules value).Returns (TextCursor.start t) (.success v.toValue rest)
          ∧ rest.remaining = "")
    ∧ (v.Nonnegative →
        ∃ rest, (Written.parser rules value).Returns (TextCursor.start (String.ofList v.render))
            (.success v.toValue rest)
          ∧ rest.remaining = "") := by
  refine ⟨value_returns_iff v t r, value_reads_all, fun hv => value_reads_all ?_⟩
  rw [String.toList_ofList]
  exact v.spells_render hv

/-- Three items, two of them lists: the canonical text is read to its end, another one with a zero in
front is read up to the comma behind it, and a digit is not a number where another digit follows. -/
theorem value_success_iff_spells_nested :
    let v : Nested := .list [.int 1, .list [.int 2, .int 30], .list []]
    v.Nonnegative
    ∧ (∃ rest, (Written.parser rules value).Returns (TextCursor.start "[1,[2,30],[]]")
          (.success v.toValue rest)
        ∧ rest.remaining = "")
    ∧ (∃ rest, (Written.parser rules value).Returns (TextCursor.start ("[01,[2,30],[]]" ++ ",7]"))
          (.success v.toValue rest)
        ∧ rest.remaining = ",7]")
    ∧ ¬ ∃ rest, (Written.parser rules value).Returns (TextCursor.start ("3" ++ "0"))
          (.success (Nested.int 3).toValue rest)
        ∧ rest.remaining = "0" := by
  intro v
  have hv : v.Nonnegative := by simp [v, Nested.Nonnegative]
  have hrender : String.ofList v.render = "[1,[2,30],[]]" := by
    simp only [v, Nested.render, List.map_cons, List.map_nil]
    decide
  have hspells : v.Spells "[01,[2,30],[]]".toList := by
    have hone : (Nested.int 1).Spells "01".toList :=
      .numeral (by decide) (List.all_eq_true.mp rfl) (by decide)
    have htwo : (Nested.int 2).Spells "2".toList :=
      .numeral (by decide) (List.all_eq_true.mp rfl) (by decide)
    have hthirty : (Nested.int 30).Spells "30".toList :=
      .numeral (by decide) (List.all_eq_true.mp rfl) (by decide)
    have hpair := Nested.Spells.brackets (.cons htwo (.cons hthirty .nil))
    have hempty := Nested.Spells.brackets .nil
    exact .brackets (.cons hone (.cons hpair (.cons hempty .nil)))
  refine ⟨hv, ?_, ?_, ?_⟩
  · rw [← hrender]
    exact (value_success_iff_spells v "" "").2.2 hv
  · exact (value_success_iff_spells v "[01,[2,30],[]]" ",7]").1.mpr ⟨hspells, trivial⟩
  · intro h
    have hends := ((value_success_iff_spells (.int 3) "3" "0").1.mp h).2
    exact absurd (hends '0' rfl) (by decide)

end ParserKit.NestedLists

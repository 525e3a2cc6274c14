import Mathlib.Logic.Equiv.Prod
import ParserKit.Cursor.Text
import ParserKit.Proofs.Returns

set_option autoImplicit false

/-! # Sequences of parsers

There are five ways to run parsers one after the other: `both`, `left`, `right`, `between` and
`apply`. They are written separately and bracket their parts in different ways. Here all of them are
compared with one reference, `inOrder ps`, which runs the parsers `ps` from the first to the last
and keeps all values.

The comparison is by equations between parsers. Every sequence is made of `Parser.bind`, which is
associative (`bind_assoc`), so that every bracketing can be brought into the form of `inOrder`: a
tree of `both` nodes is `inOrder` with the values nested as the tree is (`AndTree.map_flatten`), a
chain of `left`, `right` and `between` is `inOrder` with the values that it keeps
(`Selection.parser_eq`), and a function applied to one parser after the other is `inOrder` with that
function of the values (`applyEach_eq`). What `inOrder` returns is said without reference to any
combinator by `Passes` and `FailsFirst`.
-/

namespace ParserKit

namespace Run

variable {σ α β γ : Type}

theorem andThen_andThen (x : Run σ α) (f : α → σ → Run σ β) (g : β → σ → Run σ γ) :
    (x.andThen f).andThen g = x.andThen fun v rest => (f v rest).andThen g := by
  match x with
  | .ok (.success _ _) => rfl
  | .ok (.failure _) => rfl
  | .error _ => rfl

theorem andThen_success (x : Run σ α) : (x.andThen fun v rest => success v rest) = x := by
  match x with
  | .ok (.success _ _) => rfl
  | .ok (.failure _) => rfl
  | .error _ => rfl

end Run

namespace Parser

variable {σ α β γ ρ : Type}

/-! ## The laws of `bind` -/

/-- Parsers that run alike within every budget are the same. -/
theorem eq_of_run_eq {p q : Parser σ α} (h : ∀ n c, p.run n c = q.run n c) : p = q := by
  obtain ⟨run, _⟩ := p
  obtain ⟨run', _⟩ := q
  have hrun : run = run' := funext fun n => funext fun c => h n c
  subst hrun
  rfl

theorem bind_assoc (p : Parser σ α) (f : α → Parser σ β) (g : β → Parser σ γ) :
    (p.bind f).bind g = p.bind fun v => (f v).bind g :=
  eq_of_run_eq fun _ _ => Run.andThen_andThen _ _ _

theorem pure_bind (v : α) (f : α → Parser σ β) : (Parser.pure v).bind f = f v := rfl

theorem bind_pure (p : Parser σ α) : (p.bind fun v => Parser.pure v) = p :=
  eq_of_run_eq fun _ _ => Run.andThen_success _

theorem map_eq (f : α → β) (p : Parser σ α) : p.map f = p.bind fun v => Parser.pure (f v) := rfl

/-- A sequence comes back if its first part does and the second one does behind every success. -/
theorem bind_returns {p : Parser σ α} {next : α → Parser σ β} {c : σ} (hp : ∃ o, p.Returns c o)
    (hnext : ∀ v mid, p.Returns c (.success v mid) → ∃ o, (next v).Returns mid o) :
    ∃ o, (p.bind next).Returns c o := by
  obtain ⟨o, ho⟩ := hp
  cases o with
  | failure e => exact ⟨.failure e, returns_bind.mpr (Or.inr ⟨e, ho, rfl⟩)⟩
  | success v mid =>
      obtain ⟨o', ho'⟩ := hnext v mid ho
      exact ⟨o', returns_bind.mpr (Or.inl ⟨v, mid, ho, ho'⟩)⟩

theorem map_returns {p : Parser σ α} {c : σ} (hp : ∃ o, p.Returns c o) (f : α → β) :
    ∃ o, (p.map f).Returns c o := by
  rw [map_eq]
  exact bind_returns hp fun _ _ _ => ⟨_, returns_pure.mpr rfl⟩

/-! ## The parsers one after the other -/

/-- A parser of values of some type. -/
abbrev AnyParser (σ : Type) : Type 1 := (α : Type) × Parser σ α

/-- One value of each of the parsers. -/
abbrev Values : List (AnyParser σ) → Type
  | [] => Unit
  | p :: ps => p.1 × Values ps

/-- The values of some parsers and of those behind them, taken together. -/
def Values.join : (ps qs : List (AnyParser σ)) → Values ps × Values qs ≃ Values (ps ++ qs)
  | [], qs => Equiv.punitProd (Values qs)
  | p :: ps, qs =>
      (Equiv.prodAssoc p.1 (Values ps) (Values qs)).trans
        ((Equiv.refl p.1).prodCongr (Values.join ps qs))

/-- Runs the parsers one after the other and keeps all values. -/
def inOrder : (ps : List (AnyParser σ)) → Parser σ (Values ps)
  | [] => Parser.pure ()
  | p :: ps => p.2.bind fun v => (inOrder ps).map fun vs => (v, vs)

/-- The parsers of two lists are run one list after the other. -/
theorem inOrder_append (ps qs : List (AnyParser σ)) :
    inOrder (ps ++ qs)
      = (inOrder ps).bind fun vs => (inOrder qs).map fun ws => Values.join ps qs (vs, ws) := by
  induction ps with
  | nil =>
      show inOrder qs = (inOrder qs).map fun ws => ws
      exact (bind_pure _).symm
  | cons p ps ih =>
      calc inOrder (p :: ps ++ qs)
          = p.2.bind fun v => (inOrder (ps ++ qs)).map fun us => (v, us) := rfl
        _ = p.2.bind fun v => (inOrder ps).bind fun vs => (inOrder qs).map fun ws =>
              (v, Values.join ps qs (vs, ws)) := by
            simp only [ih, map_eq, bind_assoc, pure_bind]
        _ = (inOrder (p :: ps)).bind fun vs => (inOrder qs).map fun ws =>
              Values.join (p :: ps) qs (vs, ws) := by
            simp only [inOrder, map_eq, bind_assoc, pure_bind]
            rfl

/-! ### What they return -/

/-- From `c` on, the parsers succeed one after the other with the values `vs`, each of them on the
cursor that the one before it left, and the last one stops at `rest`. -/
def Passes : (ps : List (AnyParser σ)) → σ → Values ps → σ → Prop
  | [], c, _, rest => rest = c
  | p :: ps, c, vs, rest => ∃ mid, p.2.Returns c (.success vs.1 mid) ∧ Passes ps mid vs.2 rest

/-- From `c` on, the parsers succeed one after the other up to one that fails with `e`. -/
def FailsFirst (ps : List (AnyParser σ)) (c : σ) (e : ParseError) : Prop :=
  ∃ (front : List (AnyParser σ)) (p : AnyParser σ) (back : List (AnyParser σ))
    (vs : Values front) (mid : σ),
    ps = front ++ p :: back ∧ Passes front c vs mid ∧ p.2.Returns mid (.failure e)

theorem failsFirst_cons {p : AnyParser σ} {ps : List (AnyParser σ)} {c : σ} {e : ParseError} :
    FailsFirst (p :: ps) c e ↔
      p.2.Returns c (.failure e)
        ∨ ∃ v mid, p.2.Returns c (.success v mid) ∧ FailsFirst ps mid e := by
  constructor
  · rintro ⟨front, q, back, vs, mid, hps, hpasses, hfail⟩
    cases front with
    | nil =>
        obtain ⟨rfl, rfl⟩ := List.cons.inj hps
        obtain rfl : mid = c := hpasses
        exact Or.inl hfail
    | cons p' front =>
        obtain ⟨rfl, rfl⟩ := List.cons.inj hps
        obtain ⟨behind, hfirst, hlater⟩ := hpasses
        exact Or.inr ⟨vs.1, behind, hfirst, front, q, back, vs.2, mid, rfl, hlater, hfail⟩
  · rintro (hfail | ⟨v, behind, hfirst, front, q, back, vs, mid, rfl, hlater, hfail⟩)
    · exact ⟨[], p, ps, (), c, rfl, rfl, hfail⟩
    · exact ⟨p :: front, q, back, (v, vs), mid, rfl, ⟨behind, hfirst, hlater⟩, hfail⟩

theorem inOrder_success {ps : List (AnyParser σ)} {c rest : σ} {vs : Values ps} :
    (inOrder ps).Returns c (.success vs rest) ↔ Passes ps c vs rest := by
  induction ps generalizing c with
  | nil =>
      show (Parser.pure ()).Returns c (.success vs rest) ↔ rest = c
      rw [returns_pure, Outcome.success.injEq]
      exact and_iff_right rfl
  | cons p ps ih =>
      obtain ⟨v, vs⟩ := vs
      rw [inOrder, returns_bind]
      constructor
      · rintro (⟨v', mid, hfirst, hlater⟩ | ⟨_, _, ⟨⟩⟩)
        obtain ⟨vs', hvs', hpair⟩ := map_success.mp hlater
        obtain ⟨rfl, rfl⟩ := Prod.mk.inj hpair
        exact ⟨mid, hfirst, ih.mp hvs'⟩
      · rintro ⟨mid, hfirst, hlater⟩
        exact Or.inl ⟨v, mid, hfirst, map_success.mpr ⟨vs, ih.mpr hlater, rfl⟩⟩

theorem inOrder_failure {ps : List (AnyParser σ)} {c : σ} {e : ParseError} :
    (inOrder ps).Returns c (.failure e) ↔ FailsFirst ps c e := by
  induction ps generalizing c with
  | nil =>
      constructor
      · intro h
        cases returns_pure.mp h
      · rintro ⟨front, p, back, _, _, hnil, _⟩
        simp at hnil
  | cons p ps ih =>
      rw [inOrder, returns_bind, failsFirst_cons]
      simp only [map_failure, ih, Outcome.failure.injEq]
      constructor
      · rintro (hlater | ⟨e', hfail, rfl⟩)
        · exact Or.inr hlater
        · exact Or.inl hfail
      · rintro (hfail | hlater)
        · exact Or.inr ⟨e, hfail, rfl⟩
        · exact Or.inl hlater

/-- Parsers that always come back also do so one after the other. -/
theorem inOrder_returns {ps : List (AnyParser σ)} (h : ∀ p ∈ ps, ∀ c, ∃ o, p.2.Returns c o)
    (c : σ) : ∃ o, (inOrder ps).Returns c o := by
  induction ps generalizing c with
  | nil => exact ⟨_, returns_pure.mpr rfl⟩
  | cons p ps ih =>
      have hfirst : ∃ o, p.2.Returns c o := h p (by simp) c
      have hlater : ∀ mid, ∃ o, (inOrder ps).Returns mid o := ih fun q hq => h q (by simp [hq])
      exact bind_returns hfirst fun v mid _ => map_returns (hlater mid) _

/-! ## Bracketings -/

/-- The ways to bracket the parsers `ps` by `both`; `α` is the type of the nested pairs. -/
inductive AndTree (σ : Type) : List (AnyParser σ) → Type → Type 1 where
  | leaf {α : Type} (p : Parser σ α) : AndTree σ [⟨α, p⟩] α
  | node {ps qs : List (AnyParser σ)} {α β : Type} (l : AndTree σ ps α) (r : AndTree σ qs β) :
      AndTree σ (ps ++ qs) (α × β)

namespace AndTree

variable {ps : List (AnyParser σ)}

/-- The parser that a tree of `both` nodes is. -/
def parser {ps : List (AnyParser σ)} {α : Type} : AndTree σ ps α → Parser σ α
  | leaf p => p
  | node l r => l.parser.both r.parser

/-- The values in nested pairs, from left to right. -/
def flatten {ps : List (AnyParser σ)} {α : Type} : AndTree σ ps α → (α ≃ Values ps)
  | @leaf _ α _ => (Equiv.prodPUnit α).symm
  | @node _ ps qs _ _ l r => (l.flatten.prodCongr r.flatten).trans (Values.join ps qs)

/-- **However the parsers are bracketed, they are run in order.** -/
theorem map_flatten (t : AndTree σ ps α) : t.parser.map t.flatten = inOrder ps := by
  induction t with
  | leaf p => rfl
  | @node ps qs _ _ l r ihl ihr =>
      calc (node l r).parser.map (node l r).flatten
          = (l.parser.map l.flatten).bind fun vs => (r.parser.map r.flatten).map fun ws =>
              Values.join ps qs (vs, ws) := by
            simp only [parser, both_eq, map_eq, bind_assoc, pure_bind]
            rfl
        _ = inOrder (ps ++ qs) := by rw [ihl, ihr, inOrder_append]

/-- A function of the flattened values is that function of the values in order. -/
theorem map_comp_flatten (t : AndTree σ ps α) (f : Values ps → ρ) :
    t.parser.map (f ∘ t.flatten) = (inOrder ps).map f := by
  rw [← t.map_flatten]
  simp only [map_eq, bind_assoc, pure_bind, Function.comp_apply]

theorem parser_eq (t : AndTree σ ps α) : t.parser = (inOrder ps).map t.flatten.symm := by
  rw [← t.map_comp_flatten, Equiv.symm_comp_self]
  exact (bind_pure _).symm

theorem parser_success (t : AndTree σ ps α) {c rest : σ} {v : α} :
    t.parser.Returns c (.success v rest) ↔ Passes ps c (t.flatten v) rest := by
  rw [t.parser_eq, map_success, ← inOrder_success]
  simp [Equiv.symm_apply_eq]

theorem parser_failure (t : AndTree σ ps α) {c : σ} {e : ParseError} :
    t.parser.Returns c (.failure e) ↔ FailsFirst ps c e := by
  rw [t.parser_eq, map_failure, inOrder_failure]

end AndTree

/-! ## Chains that keep some of the values -/

/-- The ways to run the parsers `ps` by `left`, `right` and `between`, beginning with trees of
`both` nodes; `α` is the type of what is kept. -/
inductive Selection (σ : Type) : List (AnyParser σ) → Type → Type 1 where
  | tree {ps : List (AnyParser σ)} {α : Type} (t : AndTree σ ps α) : Selection σ ps α
  | left {ps qs : List (AnyParser σ)} {α β : Type} (l : Selection σ ps α) (r : Selection σ qs β) :
      Selection σ (ps ++ qs) α
  | right {ps qs : List (AnyParser σ)} {α β : Type} (l : Selection σ ps α)
      (r : Selection σ qs β) : Selection σ (ps ++ qs) β
  | between {ps qs rs : List (AnyParser σ)} {α β γ : Type} (opening : Selection σ ps α)
      (body : Selection σ qs β) (closing : Selection σ rs γ) : Selection σ (ps ++ (qs ++ rs)) β

namespace Selection

variable {ps : List (AnyParser σ)}

/-- The parser that a chain is. -/
def parser {ps : List (AnyParser σ)} {α : Type} : Selection σ ps α → Parser σ α
  | tree t => t.parser
  | left l r => l.parser.left r.parser
  | right l r => l.parser.right r.parser
  | between opening body closing => Parser.between opening.parser body.parser closing.parser

/-- What a chain keeps of the values of its parsers. -/
def project {ps : List (AnyParser σ)} {α : Type} : Selection σ ps α → Values ps → α
  | tree t, vs => t.flatten.symm vs
  | @left _ ps qs _ _ l _, vs => l.project ((Values.join ps qs).symm vs).1
  | @right _ ps qs _ _ _ r, vs => r.project ((Values.join ps qs).symm vs).2
  | @between _ ps qs rs _ _ _ _ body _, vs =>
      body.project ((Values.join qs rs).symm ((Values.join ps (qs ++ rs)).symm vs).2).1

/-- **A chain runs its parsers in order**, and keeps what it keeps of their values. -/
theorem parser_eq (s : Selection σ ps α) : s.parser = (inOrder ps).map s.project := by
  induction s with
  | tree t => exact t.parser_eq
  | left l r ihl ihr =>
      rw [parser, ihl, ihr]
      simp only [left_eq, map_eq, inOrder_append, bind_assoc, pure_bind, project,
        Equiv.symm_apply_apply]
  | right l r ihl ihr =>
      rw [parser, ihl, ihr]
      simp only [right_eq, map_eq, inOrder_append, bind_assoc, pure_bind, project,
        Equiv.symm_apply_apply]
  | between opening body closing iho ihb ihc =>
      rw [parser, iho, ihb, ihc]
      simp only [between_eq, map_eq, inOrder_append, bind_assoc, pure_bind, project,
        Equiv.symm_apply_apply]

end Selection

/-! ## Functions applied to one parser after the other -/

/-- Functions of one value of each of the parsers, one value after the other. -/
abbrev Curried : List (AnyParser σ) → Type → Type
  | [], ρ => ρ
  | p :: ps, ρ => p.1 → Curried ps ρ

/-- A function of all values as a function of one value after the other. For the identity it is the
function that collects them. -/
def curry : (ps : List (AnyParser σ)) → (Values ps → ρ) → Curried ps ρ
  | [], f => f ()
  | _ :: ps, f => fun v => curry ps fun vs => f (v, vs)

/-- Applies what `q` yields to the values of the parsers, one after the other. -/
def applyEach : (ps : List (AnyParser σ)) → Parser σ (Curried ps ρ) → Parser σ ρ
  | [], q => q
  | p :: ps, q => applyEach ps (q.apply p.2)

/-- Whatever function `q` has made of its value, it is applied to the values in order. -/
theorem applyEach_map (ps : List (AnyParser σ)) {β : Type} (q : Parser σ β)
    (f : β → Values ps → ρ) :
    applyEach ps (q.map fun b => curry ps (f b)) = q.bind fun b => (inOrder ps).map (f b) := by
  induction ps generalizing β with
  | nil => rfl
  | cons p ps ih =>
      -- The value of `p` joins that of `q`, and the function takes both.
      have hstep : (q.map fun b => curry (p :: ps) (f b)).apply p.2
          = (q.both p.2).map fun bv => curry ps fun vs => f bv.1 (bv.2, vs) := by
        simp only [apply_eq, both_eq, map_eq, bind_assoc, pure_bind]
        rfl
      calc applyEach (p :: ps) (q.map fun b => curry (p :: ps) (f b))
          = applyEach ps ((q.both p.2).map fun bv => curry ps fun vs => f bv.1 (bv.2, vs)) := by
            rw [applyEach, hstep]
        _ = (q.both p.2).bind fun bv => (inOrder ps).map fun vs => f bv.1 (bv.2, vs) :=
            ih (q.both p.2) fun bv vs => f bv.1 (bv.2, vs)
        _ = q.bind fun b => (inOrder (p :: ps)).map (f b) := by
            simp only [both_eq, inOrder, map_eq, bind_assoc, pure_bind]

theorem applyEach_eq (ps : List (AnyParser σ)) (f : Values ps → ρ) :
    applyEach ps (Parser.pure (curry ps f)) = (inOrder ps).map f :=
  applyEach_map ps (Parser.pure ()) fun _ => f

/-! ## Sequencing depends on the order alone -/

/-- **Neither the bracketing of a sequence nor the combinator that expresses it matters.** Let `t`
be a tree of `both` nodes over the parsers `ps`. It succeeds exactly if they succeed one after the
other, with their values in order and where the last one stops, and it fails exactly with the error
of the first one that fails on the cursor left by the one before it. So every other tree over `ps`
returns the same up to flattening; if the parsers always come back, the two either succeed alike or
fail alike. A function applied to one parser after the other returns what the tree returns, under
that function of the values; and so does every chain of `left`, `right` and `between` under what it
keeps of them. -/
theorem sequencing_depends_on_order {ps : List (AnyParser σ)} (t : AndTree σ ps α) (c : σ) :
    (∀ v rest, t.parser.Returns c (.success v rest) ↔ Passes ps c (t.flatten v) rest)
    ∧ (∀ e, t.parser.Returns c (.failure e) ↔ FailsFirst ps c e)
    ∧ (∀ (β : Type) (t' : AndTree σ ps β),
        (∀ o, (t.parser.map t.flatten).Returns c o ↔ (t'.parser.map t'.flatten).Returns c o)
        ∧ ((∀ p ∈ ps, ∀ c', ∃ o, p.2.Returns c' o) →
          (∃ v w rest, t.parser.Returns c (.success v rest)
            ∧ t'.parser.Returns c (.success w rest) ∧ t.flatten v = t'.flatten w)
          ∨ ∃ e, t.parser.Returns c (.failure e) ∧ t'.parser.Returns c (.failure e)
            ∧ FailsFirst ps c e))
    ∧ (∀ (ρ : Type) (f : Values ps → ρ) o,
        (applyEach ps (Parser.pure (curry ps f))).Returns c o
          ↔ (t.parser.map (f ∘ t.flatten)).Returns c o)
    ∧ ∀ (γ : Type) (s : Selection σ ps γ) o,
        s.parser.Returns c o ↔ (t.parser.map (s.project ∘ t.flatten)).Returns c o := by
  refine ⟨fun v rest => t.parser_success, fun e => t.parser_failure, fun β t' => ⟨fun o => ?_, ?_⟩,
    fun ρ f o => ?_, fun γ s o => ?_⟩
  · rw [t.map_flatten, t'.map_flatten]
  · intro hreturns
    obtain ⟨o, ho⟩ := inOrder_returns hreturns c
    cases o with
    | success vs rest =>
        have hpasses := inOrder_success.mp ho
        refine Or.inl ⟨t.flatten.symm vs, t'.flatten.symm vs, rest, ?_, ?_, by simp⟩
        · simpa [t.parser_success] using hpasses
        · simpa [t'.parser_success] using hpasses
    | failure e =>
        have hfails := inOrder_failure.mp ho
        exact Or.inr ⟨e, t.parser_failure.mpr hfails, t'.parser_failure.mpr hfails, hfails⟩
  · rw [applyEach_eq, t.map_comp_flatten]
  · rw [s.parser_eq, t.map_comp_flatten]

/-- Three parsers, one of them of numbers: bracketed to the left they succeed, so they do bracketed
to the right, and between the other two the number alone is kept. On another text the third one
fails, in the middle of both bracketings. -/
theorem sequencing_depends_on_order_letters :
    let a : Parser TextCursor Char := token 'a'
    let b : Parser TextCursor Nat := (token 'b').map fun _ => 1
    let d : Parser TextCursor Char := token 'd'
    (∀ p ∈ ([⟨Char, a⟩, ⟨Nat, b⟩, ⟨Char, d⟩] : List (AnyParser TextCursor)),
      ∀ c, ∃ o, p.2.Returns c o)
    ∧ (a.both (b.both d)).Returns (TextCursor.start "abd")
        (.success ('a', 1, 'd') (Cursor.advance 3 (TextCursor.start "abd")))
    ∧ (Parser.between a b d).Returns (TextCursor.start "abd")
        (.success 1 (Cursor.advance 3 (TextCursor.start "abd")))
    ∧ (a.both (b.both d)).Returns (TextCursor.start "abx")
        (.failure (.unexpected "'d'" "'x'" 2)) := by
  intro a b d
  let t : AndTree TextCursor [⟨Char, a⟩, ⟨Nat, b⟩, ⟨Char, d⟩] ((Char × Nat) × Char) :=
    .node (.node (.leaf a) (.leaf b)) (.leaf d)
  let t' : AndTree TextCursor [⟨Char, a⟩, ⟨Nat, b⟩, ⟨Char, d⟩] (Char × Nat × Char) :=
    .node (.leaf a) (.node (.leaf b) (.leaf d))
  have hreturns : ∀ p ∈ ([⟨Char, a⟩, ⟨Nat, b⟩, ⟨Char, d⟩] : List (AnyParser TextCursor)),
      ∀ c, ∃ o, p.2.Returns c o := by
    intro p hp c
    simp only [List.mem_cons, List.not_mem_nil, or_false] at hp
    rcases hp with rfl | rfl | rfl
    · exact ⟨_, 0, rfl⟩
    · exact map_returns ⟨_, 0, rfl⟩ _
    · exact ⟨_, 0, rfl⟩
  have hrun : t.parser.Returns (TextCursor.start "abd")
      (.success (('a', 1), 'd') (Cursor.advance 3 (TextCursor.start "abd"))) := ⟨0, rfl⟩
  have hrefused : t.parser.Returns (TextCursor.start "abx")
      (.failure (.unexpected "'d'" "'x'" 2)) := ⟨0, rfl⟩
  obtain ⟨-, -, htrees, -, hchains⟩ := sequencing_depends_on_order t (TextCursor.start "abd")
  refine ⟨hreturns, ?_, ?_, ?_⟩
  · obtain ⟨v, w, rest, hv, hw, hflat⟩ | ⟨e, he, -⟩ := (htrees _ t').2 hreturns
    · cases hv.unique hrun
      have hvalue : ('a', 1, 'd') = w := t'.flatten.injective hflat
      rw [hvalue]
      exact hw
    · cases he.unique hrun
  · refine (hchains Nat (.between (.tree (.leaf a)) (.tree (.leaf b)) (.tree (.leaf d))) _).mpr ?_
    exact map_success.mpr ⟨_, hrun, rfl⟩
  · obtain ⟨-, -, htrees, -⟩ := sequencing_depends_on_order t (TextCursor.start "abx")
    exact map_failure.mp (((htrees _ t').1 _).mp (map_failure.mpr hrefused))

end Parser

end ParserKit

import Mathlib.Algebra.GroupWithZero.Nat
import Mathlib.Data.List.Chain
import ParserKit.Proofs.Consumption

set_option autoImplicit false

/-! # The spans of repeated items

A repetition of spanned items reports one span for each item. These spans lie one behind the other:
the first one starts where the repetition starts and the last one ends where it ends
(`Span.Consecutive`). Without separators they meet, and all of them but the last one hold a token at
least, so that their lengths add up to what was read. With separators there may be gaps, but a
separator that is given back leaves none behind the last item.

All this needs parsers that go forwards (`ForwardOn`). A span that ends before it starts would have
no length; none is reported here.
-/

namespace ParserKit

/-! ## Spans one behind the other -/

namespace Span

/-- `t` starts where `s` ends, and `s` is not empty. -/
def Touches (s t : Span) : Prop := s.stop = t.start ∧ s.isEmpty = false

/-- `t` does not start before `s` ends. -/
def Precedes (s t : Span) : Prop := s.stop ≤ t.start

/-- The spans lead from the position `start` to the position `stop`. Each of them is related to the
next one by `next`, ends not before it starts, and ends within `limit`. -/
structure Consecutive (next : Span → Span → Prop) (limit start stop : Nat) (spans : List Span) :
    Prop where
  first : spans.head?.map Span.start = some start
  last : spans.getLast?.map Span.stop = some stop
  neighbours : spans.IsChain next
  ordered : ∀ s ∈ spans, s.start ≤ s.stop
  within : ∀ s ∈ spans, s.stop ≤ limit

/-- Spans that end not before they start have lengths. -/
theorem mapM_length {spans : List Span} (h : ∀ s ∈ spans, s.start ≤ s.stop) :
    spans.mapM Span.length = .ok (spans.map fun s => s.stop - s.start) := by
  induction spans with
  | nil => rfl
  | cons s spans ih =>
      have hs : s.length = .ok (s.stop - s.start) := length_of_le (h s (by simp))
      have hspans := ih fun t ht => h t (by simp [ht])
      rw [List.mapM_cons, hs, hspans]
      rfl

namespace Consecutive

variable {next : Span → Span → Prop} {limit start mid stop : Nat} {s t : Span} {spans : List Span}

theorem single (hordered : start ≤ stop) (hwithin : stop ≤ limit) :
    Consecutive next limit start stop [⟨start, stop⟩] where
  first := rfl
  last := rfl
  neighbours := .singleton _
  ordered := by simpa using hordered
  within := by simpa using hwithin

/-- A span can be put in front if it is related to every span that starts where the others do. -/
theorem cons {behind : Nat} (hordered : start ≤ mid) (hwithin : mid ≤ limit)
    (hnext : ∀ t : Span, t.start = behind → next ⟨start, mid⟩ t)
    (h : Consecutive next limit behind stop spans) :
    Consecutive next limit start stop (⟨start, mid⟩ :: spans) := by
  cases spans with
  | nil => exact absurd h.first (by simp)
  | cons t spans =>
      have hstart : t.start = behind := by simpa using h.first
      refine ⟨rfl, ?_, .cons_cons (hnext t hstart) h.neighbours, ?_, ?_⟩
      · rw [List.getLast?_cons_cons]
        exact h.last
      · exact List.forall_mem_cons.mpr ⟨hordered, h.ordered⟩
      · exact List.forall_mem_cons.mpr ⟨hwithin, h.within⟩

theorem tail (h : Consecutive next limit start stop (s :: t :: spans)) :
    Consecutive next limit t.start stop (t :: spans) where
  first := rfl
  last := by
    have hlast := h.last
    rwa [List.getLast?_cons_cons] at hlast
  neighbours := (List.isChain_cons_cons.mp h.neighbours).2
  ordered := (List.forall_mem_cons.mp h.ordered).2
  within := (List.forall_mem_cons.mp h.within).2

/-- The lengths of spans that touch add up to the way from the first to the last position. -/
theorem add_sum_eq (h : Consecutive Touches limit start stop spans) :
    start + (spans.map fun s => s.stop - s.start).sum = stop := by
  induction spans generalizing start with
  | nil => exact absurd h.first (by simp)
  | cons s spans ih =>
      have hstart : s.start = start := by simpa using h.first
      have hordered : s.start ≤ s.stop := h.ordered s (by simp)
      cases spans with
      | nil =>
          have hstop : s.stop = stop := by simpa using h.last
          simp
          omega
      | cons t spans =>
          have htouch : s.stop = t.start := (List.isChain_cons_cons.mp h.neighbours).1.1
          calc start + ((s :: t :: spans).map fun s => s.stop - s.start).sum
              = start + (s.stop - s.start + ((t :: spans).map fun s => s.stop - s.start).sum) := by
                rw [List.map_cons, List.sum_cons]
            _ = t.start + ((t :: spans).map fun s => s.stop - s.start).sum := by omega
            _ = stop := ih h.tail

end Consecutive

end Span

/-! ## Parsers that go forwards -/

namespace Parser

open Cursor SourceCursor ParserKit.Span

variable {σ τ φ α β : Type}

section Forwards

variable [Cursor σ τ]

/-- From the places `places`, the successes of `p` lead to such places again, go forwards, and end
not beyond the position `limit`. -/
structure ForwardOn (p : Parser σ α) (places : σ → Prop) (limit : Nat) : Prop where
  stays : ∀ {c rest : σ} {v : α}, places c → p.Returns c (.success v rest) → places rest
  forwards : ∀ {c rest : σ} {v : α}, places c → p.Returns c (.success v rest) →
    position c ≤ position rest
  within : ∀ {c rest : σ} {v : α}, places c → p.Returns c (.success v rest) →
    position rest ≤ limit

namespace ForwardOn

variable {p : Parser σ α} {separator : Parser σ β} {places : σ → Prop} {limit : Nat}
  {c mid rest : σ} {w : α × Span} {ws : List (α × Span)}

/-- One item has one span. -/
theorem consecutive_single (hp : p.ForwardOn places limit) (hc : places c)
    (hfirst : p.spanned.Returns c (.success w rest)) (next : Span → Span → Prop) :
    Consecutive next limit (position c) (position rest) [w.2] := by
  obtain ⟨hitem, hspan⟩ := spanned_success.mp hfirst
  rw [hspan]
  exact .single (hp.forwards hc hitem) (hp.within hc hitem)

/-- An item that ends at `mid` has its span in front of those of the later items. -/
theorem consecutive_cons (hp : p.ForwardOn places limit) (hc : places c)
    (hfirst : p.spanned.Returns c (.success w mid)) {next : Span → Span → Prop} {behind stop : Nat}
    {spans : List Span}
    (hnext : ∀ t : Span, t.start = behind → next ⟨position c, position mid⟩ t)
    (hlater : Consecutive next limit behind stop spans) :
    Consecutive next limit (position c) stop (w.2 :: spans) := by
  obtain ⟨hitem, hspan⟩ := spanned_success.mp hfirst
  rw [hspan]
  exact .cons (hp.forwards hc hitem) (hp.within hc hitem) hnext hlater

theorem stays_spanned (hp : p.ForwardOn places limit) (hc : places c)
    (hfirst : p.spanned.Returns c (.success w mid)) : places mid :=
  hp.stays hc (spanned_success.mp hfirst).1

/-- The spans of the rounds of a repetition touch. -/
theorem consecutive_of_rounds (hp : p.ForwardOn places limit) (hc : places c)
    (hfirst : p.spanned.Returns c (.success w mid))
    (hrounds : p.spanned.Rounds (position c) mid ws rest) :
    Consecutive Touches limit (position c) (position rest) ((w :: ws).map Prod.snd) := by
  generalize hprevious : position c = previous at hrounds
  induction hrounds generalizing c w with
  | still | refused =>
      subst hprevious
      exact hp.consecutive_single hc hfirst _
  | @again previous mid next rest v vs hmoved hnext _ ih =>
      subst hprevious
      have hlater := ih (hp.stays_spanned hc hfirst) hnext rfl
      refine hp.consecutive_cons hc hfirst (fun t ht => ⟨ht.symm, ?_⟩) hlater
      -- There is a further round, so this one has moved.
      simpa [isEmpty] using hmoved.symm

/-- The spans of the rounds of a separated list come one behind the other. -/
theorem consecutive_of_separatedRounds (hp : p.ForwardOn places limit)
    (hs : separator.ForwardOn places limit) (hc : places c)
    (hfirst : p.spanned.Returns c (.success w mid))
    (hrounds : SeparatedRounds separator p.spanned mid ws rest) :
    Consecutive Precedes limit (position c) (position rest) ((w :: ws).map Prod.snd) := by
  induction hrounds generalizing c w with
  | noSeparator | noItem => exact hp.consecutive_single hc hfirst _
  | still hseparator hitem =>
      have hmid := hp.stays_spanned hc hfirst
      have hlater := hp.consecutive_single (hs.stays hmid hseparator) hitem Precedes
      have hgap := hs.forwards hmid hseparator
      exact hp.consecutive_cons hc hfirst (fun t ht => hgap.trans_eq ht.symm) hlater
  | again hseparator hitem _ _ ih =>
      have hmid := hp.stays_spanned hc hfirst
      have hlater := ih (hs.stays hmid hseparator) hitem
      have hgap := hs.forwards hmid hseparator
      exact hp.consecutive_cons hc hfirst (fun t ht => hgap.trans_eq ht.symm) hlater

end ForwardOn

end Forwards

variable [SourceCursor σ τ φ]

/-- A parser that only reads on goes forwards within the source, from all that can be reached. -/
theorem Consumes.forwardOn [LawfulCursor σ τ] [TokenSource φ τ] [LawfulSource σ τ φ]
    {p : Parser σ α} (hp : Consumes p) (c : σ) : p.ForwardOn (Reaches c) (sourceLength c) where
  stays hc h := hc.trans (hp _ _ _ h)
  forwards _ h := (hp _ _ _ h).position_le
  within hc h := (hc.trans (hp _ _ _ h)).position_le_sourceLength

/-! ## Tiling -/

/-- **Spans tile what was read.** Let the successes of `p` and of `separator` go forwards and stay
within the source of `c`, wherever they lead from `c` (`places` holds these places). The spans of a
repetition of `p` that starts at `c` lead from there to its end, each of them starts where the one
before it ends, and only the last one can be empty; their lengths add up to what was read. The spans
of a list with separators lead from `c` to the end of the list, each of them starting not before the
one in front of it ends. In both cases every span ends not before it starts and within the source,
so that all of them have lengths. -/
theorem spans_tile (p : Parser σ α) (c : σ) (places : σ → Prop) (hc : places c)
    (hp : p.ForwardOn places (sourceLength c)) :
    (∀ ws rest, p.spanned.oneOrMore.Returns c (.success ws rest) →
      Consecutive Touches (sourceLength c) (position c) (position rest) (ws.map Prod.snd)
      ∧ ∃ lengths, (ws.map Prod.snd).mapM Span.length = .ok lengths
        ∧ position c + lengths.sum = position rest)
    ∧ ∀ (β : Type) (separator : Parser σ β), separator.ForwardOn places (sourceLength c) →
      ∀ ws rest, (p.spanned.separatedList separator).Returns c (.success ws rest) →
        Consecutive Precedes (sourceLength c) (position c) (position rest) (ws.map Prod.snd)
        ∧ ∃ lengths, (ws.map Prod.snd).mapM Span.length = .ok lengths := by
  constructor
  · intro ws rest h
    obtain ⟨w, mid, ws, hfirst, hrounds, rfl⟩ := oneOrMore_success.mp h
    have hspans := hp.consecutive_of_rounds hc hfirst hrounds
    exact ⟨hspans, _, mapM_length hspans.ordered, hspans.add_sum_eq⟩
  · intro β separator hs ws rest h
    obtain ⟨w, mid, ws, hfirst, hrounds, rfl⟩ := separatedList_success.mp h
    have hspans := hp.consecutive_of_separatedRounds hs hc hfirst hrounds
    exact ⟨hspans, _, mapM_length hspans.ordered⟩

/-- A repetition whose last round stands still has an empty span at its end, and a list leaves out
the separators, also the one that it gives back. -/
theorem spans_tile_letters :
    Consecutive Touches 3 0 2 [⟨0, 1⟩, ⟨1, 2⟩, ⟨2, 2⟩]
    ∧ Consecutive Precedes 5 0 3 [⟨0, 1⟩, ⟨2, 3⟩] := by
  constructor
  · let p : Parser TextCursor Char := (token 'a').optional '-'
    have hp : p.ForwardOn (Reaches (TextCursor.start "aab")) 3 :=
      ((consumes_satisfy _ _).optional '-').forwardOn _
    have hrun : p.spanned.oneOrMore.Returns (TextCursor.start "aab")
        (.success [('a', ⟨0, 1⟩), ('a', ⟨1, 2⟩), ('-', ⟨2, 2⟩)]
          (advance 2 (TextCursor.start "aab"))) := ⟨4, rfl⟩
    exact ((spans_tile p (TextCursor.start "aab") _ (.refl _) hp).1 _ _ hrun).1
  · have hp : (token 'a').ForwardOn (Reaches (TextCursor.start "a,a,b")) 5 :=
      (consumes_satisfy _ _).forwardOn _
    have hs : (token ',').ForwardOn (Reaches (TextCursor.start "a,a,b")) 5 :=
      (consumes_satisfy _ _).forwardOn _
    have hrun : ((token 'a').spanned.separatedList (token ',')).Returns (TextCursor.start "a,a,b")
        (.success [('a', ⟨0, 1⟩), ('a', ⟨2, 3⟩)] (advance 3 (TextCursor.start "a,a,b"))) := ⟨4, rfl⟩
    exact ((spans_tile _ (TextCursor.start "a,a,b") _ (.refl _) hp).2 _ _ hs _ _ hrun).1

end Parser

end ParserKit

import ParserKit.Grammar
import ParserKit.Grammar.Routine

set_option autoImplicit false

/-! # Parsing with a written grammar

Grammars whose functions on cursors are routines can be run on the cursors of a source, with the
budget that the source and the grammar ask for.
-/

namespace ParserKit

variable {σ τ φ : Type} [SourceCursor σ τ φ] [Token τ] [DecidableEq τ]

/-- A grammar whose functions on cursors are routines. -/
abbrev Written (τ : Type) : Type := Grammar τ Routine

/-- The named rules of written grammars. -/
abbrev WrittenRules (τ : Type) : Type := Rules τ Routine

namespace Written

/-- The parser of a written grammar. -/
def parser (rules : WrittenRules τ) (g : Written τ) : Parser σ (Value τ) :=
  Grammar.parser Routine.run rules g

/-- The budget of a written grammar on the source of a cursor. -/
def budgetAt (rules : WrittenRules τ) (g : Written τ) (c : σ) : Nat :=
  Grammar.budget rules g (SourceCursor.sourceLength c)

/-- The run of a written grammar on a cursor. -/
def parse (rules : WrittenRules τ) (g : Written τ) (c : σ) : Run σ (Value τ) :=
  (parser rules g).run (budgetAt rules g c) c

/-- The run of a written grammar on a source, of which the first `skip` tokens are passed over. -/
def parseSource (rules : WrittenRules τ) (g : Written τ) (skip : Nat) (source : φ) :
    Run σ (Value τ) :=
  parse rules g (Cursor.advance skip (SourceCursor.start source : σ))

end Written

end ParserKit

import ParserKit.Check
import ParserKit.Grammar.Parse

set_option autoImplicit false

/-! # Sessions

A session works on some sources with named cursors, step by step: it places cursors, reads from
them, compares them, and runs parsers and checks on them. Each step has an answer. The cursor that
a step leads to is kept under the name that the step gives for it; a step that leads to none, such
as a failed parse, keeps nothing.
-/

namespace ParserKit

variable {σ τ φ : Type}

/-- Cursors by name; of two with one name the first counts. -/
abbrev Registers (σ : Type) : Type := List (String × σ)

/-- Keeps a cursor under a name, if there are both. -/
def Registers.store (registers : Registers σ) (name : Option String) (c : Option σ) :
    Registers σ :=
  match name, c with
  -- An older cursor of that name is forgotten.
  | some name, some c => (name, c) :: registers.filter fun entry => entry.1 != name
  | _, _ => registers

/-- One step of a session. `origin` names the cursor that it works on, `target` the name under
which it keeps the resulting one. -/
inductive Step (τ : Type) where
  /-- Places a cursor on the source with the given index. -/
  | place (source : Nat) (placement : Placement) (target : Option String)
  /-- Takes the cursor as it is. -/
  | copy (origin : String) (target : Option String)
  /-- Reads one token. -/
  | next (origin : String) (target : Option String)
  /-- Compares two cursors. -/
  | compare (first second : String)
  /-- Runs a grammar. -/
  | parse (origin : String) (target : Option String) (g : Written τ)
  /-- Demands that a grammar succeeds. -/
  | checkSucceeds (origin : String) (target : Option String) (g : Written τ)
      (expected : Option (Value τ)) (consumed : Option Nat)
  /-- Demands that a grammar fails. -/
  | checkFails (origin : String) (g : Written τ)
  /-- Demands that two grammars have the same outcome. -/
  | checkEqually (origin : String) (g other : Written τ) (side : Option Bool)

/-- The answer to one step of a session. -/
inductive Answer (σ τ : Type) where
  /-- The cursor that the step leads to. -/
  | cursor (c : σ)
  /-- The token that was read, and the cursor behind it. -/
  | token (t : τ) (rest : σ)
  /-- There was no token to read. -/
  | noToken
  /-- Whether two cursors are equal. -/
  | comparison (equal : Bool)
  /-- The run of a grammar. -/
  | run (r : Run σ (Value τ))
  /-- A check passed, and may have led to a cursor. -/
  | passed (rest : Option σ)
  /-- A check was violated. -/
  | violated (violation : Violation σ (Value τ))
  /-- A check was interrupted. -/
  | interrupted (interruption : Interruption)
  /-- The step names a cursor or a source that is not there. -/
  | undefined

namespace Answer

/-- The cursor that a step with this answer leads to. -/
def result? : Answer σ τ → Option σ
  | cursor c => some c
  | token _ rest => some rest
  | run (.ok (.success _ rest)) => some rest
  | passed rest => rest
  | _ => none

/-- The answer to a check. -/
def ofCheck {α : Type} (rest? : α → Option σ) :
    Except Interruption (Except (Violation σ (Value τ)) α) → Answer σ τ
  | .ok (.ok a) => passed (rest? a)
  | .ok (.error violation) => violated violation
  | .error interruption => interrupted interruption

end Answer

namespace Step

/-- The name under which a step keeps its cursor. -/
def target? : Step τ → Option String
  | place _ _ target | copy _ target | next _ target | parse _ target _
  | checkSucceeds _ target _ _ _ => target
  | compare _ _ | checkFails _ _ | checkEqually _ _ _ _ => none

variable [SourceCursor σ τ φ] [BEq σ] [Token τ] [DecidableEq τ]

/-- The answer to a step on a cursor. -/
def withCursor (registers : Registers σ) (name : String) (answer : σ → Answer σ τ) : Answer σ τ :=
  match registers.lookup name with
  | some c => answer c
  | none => .undefined

/-- The answer to a step. -/
def answer (rules : WrittenRules τ) (sources : List φ) (registers : Registers σ) :
    Step τ → Answer σ τ
  | place source placement _ =>
    match sources[source]?.bind (SourceCursor.place? placement) with
    | some c => .cursor c
    | none => .undefined
  | copy origin _ => withCursor registers origin .cursor
  | next origin _ => withCursor registers origin fun c =>
    match Cursor.next? c with
    | some (t, rest) => .token t rest
    | none => .noToken
  | compare first second => withCursor registers first fun a =>
    withCursor registers second fun b => .comparison (a == b)
  | parse origin _ g => withCursor registers origin fun c => .run (g.parse rules c)
  | checkSucceeds origin _ g expected consumed => withCursor registers origin fun c =>
    .ofCheck some ((g.parser rules).checkSucceeds (g.budgetAt rules c) c expected consumed)
  | checkFails origin g => withCursor registers origin fun c =>
    .ofCheck (fun _ => none) ((g.parser rules).checkFails (g.budgetAt rules c) c)
  | checkEqually origin g other side => withCursor registers origin fun c =>
    -- One budget for both, so that neither is interrupted where the other is not.
    .ofCheck (fun _ => none)
      ((g.parser rules).checkEqually (other.parser rules)
        (max (g.budgetAt rules c) (other.budgetAt rules c)) c side)

/-- The answers to the steps of a session that starts with `registers`. -/
def answers (rules : WrittenRules τ) (sources : List φ) (registers : Registers σ) :
    List (Step τ) → List (Answer σ τ)
  | [] => []
  | step :: steps =>
    let a := step.answer rules sources registers
    a :: answers rules sources (registers.store step.target? a.result?) steps

end Step

end ParserKit

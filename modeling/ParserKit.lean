import ParserKit.Check
import ParserKit.Combine
import ParserKit.Cursor
import ParserKit.Cursor.Text
import ParserKit.Cursor.Tokens
import ParserKit.Describe
import ParserKit.Grammar
import ParserKit.Grammar.Condition
import ParserKit.Grammar.Parse
import ParserKit.Grammar.Routine
import ParserKit.Lexeme
import ParserKit.ParseError
import ParserKit.Parser.Basic
import ParserKit.Parser.Choice
import ParserKit.Parser.Primitive
import ParserKit.Parser.Recursion
import ParserKit.Parser.Refine
import ParserKit.Parser.Repetition
import ParserKit.Parser.Sequence
import ParserKit.Proofs.Acceptance
import ParserKit.Proofs.Alternatives
import ParserKit.Proofs.Arithmetic
import ParserKit.Proofs.Chains
import ParserKit.Proofs.Checks
import ParserKit.Proofs.Conservation
import ParserKit.Proofs.Consumption
import ParserKit.Proofs.CursorEquality
import ParserKit.Proofs.CursorStates
import ParserKit.Proofs.Descriptions
import ParserKit.Proofs.Diagnostics
import ParserKit.Proofs.ErrorTexts
import ParserKit.Proofs.ExpectationErrors
import ParserKit.Proofs.Halting
import ParserKit.Proofs.Lockstep
import ParserKit.Proofs.NestedLists
import ParserKit.Proofs.NestingDepth
import ParserKit.Proofs.Nullability
import ParserKit.Proofs.Occurrence
import ParserKit.Proofs.OrderedChoice
import ParserKit.Proofs.Progress
import ParserKit.Proofs.RawCursor
import ParserKit.Proofs.Reading
import ParserKit.Proofs.Rebasing
import ParserKit.Proofs.Returns
import ParserKit.Proofs.Rounds
import ParserKit.Proofs.SeparatedRepetition
import ParserKit.Proofs.Sequencing
import ParserKit.Proofs.SpanTiling
import ParserKit.Proofs.Termination
import ParserKit.Run
import ParserKit.Session
import ParserKit.Span
import ParserKit.Text.ExtendingMark
import ParserKit.Text.Layout
import ParserKit.Text.Quoted
import ParserKit.Text.Unprintable
import ParserKit.Token
import ParserKit.Value
import ParserKit.Value.Call
import ParserKit.Value.Operation

import Questlog.Main
import Questlog.Service.Routes
import Questlog.Checklist.Writing
import Questlog.Proofs.Cache.Links
import Questlog.Proofs.Cache.Linked
import Questlog.Proofs.Cache.Renumbering
import Questlog.Proofs.Cache.Eviction
import Questlog.Proofs.Cache.Recent
import Questlog.Proofs.Cache.Recency
import Questlog.Proofs.Cache.History
import Questlog.Proofs.Condition.Compiler
import Questlog.Proofs.Condition.Turns
import Questlog.Proofs.Condition.Session
import Questlog.Proofs.Condition.Inert
import Questlog.Proofs.Decimal.Numeral
import Questlog.Proofs.Decimal.Integer
import Questlog.Proofs.Json.Scalar
import Questlog.Proofs.Json.Constant
import Questlog.Proofs.Expression.Grammar
import Questlog.Proofs.Expression.Levels
import Questlog.Proofs.Expression.Climbing
import Questlog.Proofs.Expression.Operands
import Questlog.Proofs.Expression.Soundness.Chain
import Questlog.Proofs.Expression.Soundness.Operand
import Questlog.Proofs.Expression.Completeness.Chain
import Questlog.Proofs.Expression.Completeness.Operand
import Questlog.Proofs.Expression.Acceptance
import Questlog.Proofs.Expression.Fields
import Questlog.Proofs.Expression.Predicate
import Questlog.Proofs.Expression.Relevance
import Questlog.Proofs.Condition.Relevance
import Questlog.Proofs.Expression.Literal
import Questlog.Proofs.Expression.Written
import Questlog.Proofs.Expression.Spelling
import Questlog.Proofs.Expression.Scan
import Questlog.Proofs.Expression.Opacity
import Questlog.Proofs.Expression.Constant
import Questlog.Proofs.Condition.Wildcard
import Questlog.Proofs.Condition.Agreement
import Questlog.Proofs.Condition.Verdict
import Questlog.Proofs.Checklist.Key
import Questlog.Proofs.Checklist.Place
import Questlog.Proofs.Checklist.Statuses
import Questlog.Proofs.Checklist.Page
import Questlog.Proofs.Checklist.Path
import Questlog.Proofs.Checklist.Marking
import Questlog.Proofs.Binary64.Nearest
import Questlog.Proofs.Decimal.Value
import Questlog.Proofs.Decimal.Shortest
import Questlog.Proofs.Decimal.Layout
import Questlog.Proofs.Json.Number
import Questlog.Proofs.Json.Text
import Questlog.Proofs.Entries
import Questlog.Proofs.Json.Fits
import Questlog.Proofs.Json.Pretty
import Questlog.Proofs.Disk
import Questlog.Proofs.Progress.Operation
import Questlog.Proofs.Progress.Saved
import Questlog.Proofs.Progress.Sharing
import Questlog.Proofs.Progress.Completed
import Questlog.Proofs.Progress.OrderedSet
import Questlog.Proofs.Text.ByteOrder
import Questlog.Proofs.Progress.Snapshot
import Questlog.Proofs.Service.Step
import Questlog.Proofs.Service.Events
import Questlog.Proofs.Service.Refusal
import Questlog.Proofs.Service.Leniency
import Questlog.Proofs.Service.Record
import Questlog.Proofs.Service.Asked
import Questlog.Proofs.Service.History
import Questlog.Proofs.Service.Evaluation
import Questlog.Proofs.Command.Arguments
import Questlog.Proofs.Command.Words
import Questlog.Proofs.Command.Program
import Questlog.Proofs.Command.Update
import Questlog.Proofs.Command.History
import Questlog.Proofs.Command.Decision
import Questlog.Proofs.Expression.Escape
import Questlog.Proofs.Expression.Pairing
import Questlog.Proofs.Expression.Tiling
import Questlog.Proofs.Expression.Blame
import Questlog.Proofs.Operand.Comparison
import Questlog.Proofs.Text.UnitOrder
import Questlog.Proofs.Operand.TextOrder
import Questlog.Proofs.Decimal.Spelling
import Questlog.Proofs.Decimal.Tight
import Questlog.Proofs.Operand.Numeric
import Questlog.Proofs.Operand.NumberText
import Questlog.Proofs.Binary64.Exact
import Questlog.Proofs.Operand.Wrapping
import Questlog.Proofs.Condition.Shape
import Questlog.Proofs.Condition.Shorthand
import Questlog.Proofs.Checklist.Document
import Questlog.Proofs.Checklist.Outline
import Questlog.Proofs.Checklist.Segment
import Questlog.Proofs.Checklist.Record
import Questlog.Proofs.Checklist.RoundTrip
import Questlog.Proofs.Json.Grammar
import Questlog.Proofs.Json.Token
import Questlog.Proofs.Json.Soundness
import Questlog.Proofs.Json.Completeness
import Questlog.Proofs.Condition.RightHandSide
import Questlog.Proofs.Text.Boundary
import Questlog.Proofs.Expression.Turn
import Questlog.Proofs.Expression.Walk

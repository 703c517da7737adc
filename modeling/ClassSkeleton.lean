import ClassSkeleton.Compile
import ClassSkeleton.Decl.Basic
import ClassSkeleton.Decl.Build
import ClassSkeleton.Decl.Groups
import ClassSkeleton.Diagnostic
import ClassSkeleton.Document
import ClassSkeleton.Json.Cursor
import ClassSkeleton.Json.Fault
import ClassSkeleton.Json.Number
import ClassSkeleton.Json.Record
import ClassSkeleton.Json.Value
import ClassSkeleton.Markup.Attributes
import ClassSkeleton.Markup.Element
import ClassSkeleton.Markup.Entity
import ClassSkeleton.Markup.Event
import ClassSkeleton.Markup.Fault
import ClassSkeleton.Markup.Print
import ClassSkeleton.Markup.Tree
import ClassSkeleton.Pattern
import ClassSkeleton.Pattern.CharSet
import ClassSkeleton.Pattern.Grammar.Bracket
import ClassSkeleton.Pattern.Grammar.Cursor
import ClassSkeleton.Pattern.Grammar.Escape
import ClassSkeleton.Pattern.Grammar.Sequence
import ClassSkeleton.Pattern.Match
import ClassSkeleton.Pattern.Node
import ClassSkeleton.Pattern.Replace
import ClassSkeleton.Pattern.Template
import ClassSkeleton.Proofs.FirstWins
import ClassSkeleton.Proofs.Markup.Escaping
import ClassSkeleton.Proofs.Markup.RoundTrip
import ClassSkeleton.Proofs.Markup.Spelling
import ClassSkeleton.Proofs.Markup.TagText
import ClassSkeleton.Proofs.Pattern.Gaining
import ClassSkeleton.Proofs.Pattern.Heaviest
import ClassSkeleton.Proofs.Pattern.Taking
import ClassSkeleton.Proofs.Rules.Entries
import ClassSkeleton.Proofs.Rules.Settling
import ClassSkeleton.Proofs.Run.Account
import ClassSkeleton.Proofs.Run.Fate
import ClassSkeleton.Proofs.Run.Record
import ClassSkeleton.Rules.Config
import ClassSkeleton.Rules.Rule
import ClassSkeleton.Rules.RuleSet
import ClassSkeleton.Rules.Standard
import ClassSkeleton.Rules.Unwrap
import ClassSkeleton.Run.Arguments
import ClassSkeleton.Run.Generate
import ClassSkeleton.Run.Host
import ClassSkeleton.Run.Log
import ClassSkeleton.Run.Path
import ClassSkeleton.Run.Progress
import ClassSkeleton.Run.Session
import ClassSkeleton.Run.Store
import ClassSkeleton.Run.Usage
import ClassSkeleton.Skeleton.Buffer
import ClassSkeleton.Skeleton.Emit
import ClassSkeleton.Skeleton.Rewriting
import ClassSkeleton.Skeleton.Warnings
import ClassSkeleton.Text.Cut
import ClassSkeleton.Text.Digit
import ClassSkeleton.Text.Lines
import ClassSkeleton.Text.Position
import ClassSkeleton.Text.Quoted
import ClassSkeleton.Text.Substitute
import ClassSkeleton.Text.Trim
import ClassSkeleton.Unicode.CaseOrbit
import ClassSkeleton.Unicode.Category
import ClassSkeleton.Unicode.CategoryTable
import ClassSkeleton.Unicode.CharClass
import ClassSkeleton.Unicode.Property
import ClassSkeleton.Unicode.Runs
import ClassSkeleton.Unicode.Script
import ClassSkeleton.Unicode.ScriptTable
import ClassSkeleton.Main
import ClassSkeleton.Proofs.Json.Reading
import ClassSkeleton.Proofs.Rules.Reloading
import ClassSkeleton.Proofs.Markup.Linearisation
import ClassSkeleton.Proofs.Decl.Grouping
import ClassSkeleton.Proofs.Skeleton.Layout
import ClassSkeleton.Proofs.Report
import ClassSkeleton.Proofs.Run.FileName
import ClassSkeleton.Proofs.Run.FrontEnds
import ClassSkeleton.Proofs.Text.Trimming
import ClassSkeleton.Proofs.Decl.Acceptance
import ClassSkeleton.Proofs.Skeleton.UnitName
import ClassSkeleton.Proofs.Text.Brackets
import ClassSkeleton.Proofs.Pattern.Words
import ClassSkeleton.Proofs.Rules.Openers
import ClassSkeleton.Proofs.Rules.TypeTree
import ClassSkeleton.Proofs.Pattern.Literal
import ClassSkeleton.Proofs.Rules.Wrapping
import ClassSkeleton.Proofs.Text.Outline
import ClassSkeleton.Proofs.Pattern.Keeping
import ClassSkeleton.Proofs.Rules.Exposing
import ClassSkeleton.Proofs.Skeleton.Arity
import ClassSkeleton.Proofs.Text.Occurrence
import ClassSkeleton.Proofs.Skeleton.Innermost
import ClassSkeleton.Proofs.Run.FailedWrite
import ClassSkeleton.Proofs.Markup.Tokens
import ClassSkeleton.Proofs.Pattern.Spanning
import ClassSkeleton.Proofs.Rules.Retagging
import ClassSkeleton.Proofs.Rules.Documentation
import ClassSkeleton.Proofs.Markup.Lexemes
import ClassSkeleton.Proofs.Markup.TagOffsets
import ClassSkeleton.Proofs.Skeleton.Comment
import ClassSkeleton.Proofs.Markup.Places
import ClassSkeleton.Proofs.Pattern.Tracking
import ClassSkeleton.Proofs.Rules.Following
import ClassSkeleton.Proofs.Rules.PairedTags
import ClassSkeleton.Proofs.Pattern.Branching
import ClassSkeleton.Proofs.Pattern.Phrases
import ClassSkeleton.Proofs.Rules.Aligned
import ClassSkeleton.Proofs.Rules.Blanks
import ClassSkeleton.Proofs.Rules.Cutting
import ClassSkeleton.Proofs.Rules.Removal
import ClassSkeleton.Proofs.Skeleton.Cuts
import ClassSkeleton.Proofs.Rules.Operators
import ClassSkeleton.Proofs.Rules.Scalars
import ClassSkeleton.Proofs.Rules.Spacing
import ClassSkeleton.Proofs.Skeleton.Lines
import ClassSkeleton.Proofs.Excerpt
import ClassSkeleton.Proofs.Skeleton.Banners
import ClassSkeleton.Proofs.Text.Coordinates
import ClassSkeleton.Proofs.Rules.Rounds
import ClassSkeleton.Proofs.Skeleton.Edits

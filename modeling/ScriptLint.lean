import ScriptLint.Span
import ScriptLint.Text.Blank
import ScriptLint.Text.Bytes
import ScriptLint.Text.Line
import ScriptLint.Text.Pad
import ScriptLint.Text.Split
import ScriptLint.Number.Double
import ScriptLint.Number.Numeral
import ScriptLint.Number.Shortest
import ScriptLint.Settings
import ScriptLint.Error
import ScriptLint.Diagnostic
import ScriptLint.Token.Basic
import ScriptLint.Token.Lexeme
import ScriptLint.Token.Scan
import ScriptLint.Ty
import ScriptLint.Tree.Expr
import ScriptLint.Tree.Stmt
import ScriptLint.Grammar.Reading
import ScriptLint.Grammar.Forms
import ScriptLint.Grammar.Context
import ScriptLint.Grammar.Expression
import ScriptLint.Grammar.Declaration
import ScriptLint.Grammar.Control
import ScriptLint.Grammar.Handling
import ScriptLint.Grammar.Statement
import ScriptLint.Grammar.Program
import ScriptLint.Typing.Scope
import ScriptLint.Typing.Infer
import ScriptLint.Typing.Checker
import ScriptLint.Analysis
import ScriptLint.Report.Excerpt
import ScriptLint.Report.Json
import ScriptLint.Report.TreeJson
import ScriptLint.CommandLine.Path
import ScriptLint.CommandLine.Options
import ScriptLint.CommandLine.Run
import ScriptLint.Main
import ScriptLint.Proofs.Token.Stream
import ScriptLint.Proofs.Tree.Parts
import ScriptLint.Proofs.Reasoning.Logic
import ScriptLint.Proofs.Reasoning.Forms
import ScriptLint.Proofs.Reasoning.Outcome
import ScriptLint.Proofs.Reading.Passes
import ScriptLint.Proofs.Reading.Lists
import ScriptLint.Proofs.Reading.Clean
import ScriptLint.Proofs.Reading.Accepts
import ScriptLint.Proofs.Phrase.Grammar
import ScriptLint.Proofs.Phrase.Powers
import ScriptLint.Proofs.Phrase.Soundness
import ScriptLint.Proofs.Phrase.Completeness
import ScriptLint.Proofs.Phrase.Recognition
import ScriptLint.Proofs.Sentence.Grammar
import ScriptLint.Proofs.Nesting.Limit
import ScriptLint.Proofs.Nesting.Supply
import ScriptLint.Proofs.Nesting.Threshold
import ScriptLint.Proofs.Reasoning.Forward
import ScriptLint.Proofs.Reasoning.Loops
import ScriptLint.Proofs.Session.Rounds
import ScriptLint.Proofs.Run.Logic
import ScriptLint.Proofs.Run.Expressions
import ScriptLint.Proofs.Run.Forms
import ScriptLint.Proofs.Run.Statements
import ScriptLint.Proofs.Sentence.Soundness
import ScriptLint.Proofs.Sentence.CompleteParts
import ScriptLint.Proofs.Sentence.Completeness
import ScriptLint.Proofs.Sentence.Recognition
import ScriptLint.Proofs.Nesting.Tower
import ScriptLint.Proofs.Nesting.Height
import ScriptLint.Proofs.Tree.Nodes
import ScriptLint.Proofs.Tree.Spans
import ScriptLint.Proofs.Typing.Writes
import ScriptLint.Proofs.Text.Embedding
import ScriptLint.Proofs.Token.Places
import ScriptLint.Proofs.Token.Composition
import ScriptLint.Proofs.Phrase.Spans
import ScriptLint.Proofs.Reading.Over
import ScriptLint.Proofs.Reasoning.Needs
import ScriptLint.Proofs.Placement.Laying
import ScriptLint.Proofs.Placement.Phrases
import ScriptLint.Proofs.Placement.Sentences
import ScriptLint.Proofs.Placement.Program
import ScriptLint.Proofs.Alignment.Basic
import ScriptLint.Proofs.Alignment.Steps
import ScriptLint.Proofs.Alignment.Phrases
import ScriptLint.Proofs.Alignment.Sentences
import ScriptLint.Proofs.Alignment.Embedding
import ScriptLint.Proofs.Alignment.Extension
import ScriptLint.Proofs.Sequence.Program
import ScriptLint.Proofs.Sequence.Sparing
import ScriptLint.Proofs.Sequence.Recovery
import ScriptLint.Proofs.Typing.Faults
import ScriptLint.Proofs.Typing.Statics
import ScriptLint.Proofs.Typing.Rejection
import ScriptLint.Proofs.Failure.Headers
import ScriptLint.Proofs.Failure.Program
import ScriptLint.Proofs.Session.Operations
import ScriptLint.Proofs.Session.Soundness
import ScriptLint.Proofs.Session.Resync
import ScriptLint.Proofs.Token.Writing
import ScriptLint.Proofs.Token.Tiling
import ScriptLint.Proofs.Tree.Respelling
import ScriptLint.Proofs.Typing.Respelling
import ScriptLint.Proofs.Alignment.Layout
import ScriptLint.Proofs.Folding.Tokens
import ScriptLint.Proofs.Folding.Phrases
import ScriptLint.Proofs.Folding.Sentences
import ScriptLint.Proofs.Folding.Program
import ScriptLint.Proofs.Text.Lines
import ScriptLint.Proofs.Text.Shown
import ScriptLint.Proofs.Typing.Parts
import ScriptLint.Proofs.Reporting.Places
import ScriptLint.Proofs.Reporting.Positions
import ScriptLint.Proofs.Reporting.Underline
import ScriptLint.Proofs.Tree.Renaming
import ScriptLint.Proofs.Alignment.Contents
import ScriptLint.Proofs.CommandLine.Verdict
import ScriptLint.Proofs.Typing.Growth
import ScriptLint.Proofs.Shape.Phrases
import ScriptLint.Proofs.Shape.Sentences
import ScriptLint.Proofs.Shape.Program
import ScriptLint.Proofs.Token.OpenString
import ScriptLint.Proofs.Token.Spacing
import ScriptLint.Proofs.Typing.Provenance
import ScriptLint.Proofs.Typing.Order
import ScriptLint.Proofs.Phrase.Extent

import Adventure.Main
import Adventure.Report
import Adventure.Source.Cursor
import Adventure.Syntax.Printer
import Adventure.Proofs.Lexing
import Adventure.Proofs.Exactness
import Adventure.Proofs.Grammar
import Adventure.Proofs.Reading.Leaf
import Adventure.Proofs.Reading.Expression
import Adventure.Proofs.Reading.Statement
import Adventure.Proofs.Reading.Template
import Adventure.Proofs.Reading.Program
import Adventure.Proofs.Derivation
import Adventure.Proofs.EarliestError
import Adventure.Proofs.Assignables
import Adventure.Proofs.Escaping
import Adventure.Proofs.RoundTrip
import Adventure.Proofs.FinalError
import Adventure.Proofs.Settled
import Adventure.Proofs.Loading
import Adventure.Proofs.Pieces
import Adventure.Proofs.History
import Adventure.Proofs.Reached
import Adventure.Proofs.CallDepth
import Adventure.Proofs.ErrorPlace
import Adventure.Proofs.Draws
import Adventure.Proofs.Ending
import Adventure.Proofs.LoopFree
import Adventure.Proofs.Interruption
import Adventure.Proofs.Isolation
import Adventure.Proofs.WellFormed
import Adventure.Proofs.Growth
import Adventure.Proofs.Fallback
import Adventure.Proofs.Legible
import Adventure.Proofs.Dump
import Adventure.Proofs.Traffic
import Adventure.Proofs.Streaming
import Adventure.Proofs.BrokenStream
import Adventure.Proofs.WholeNumbers
import Adventure.Proofs.Formula
import Adventure.Proofs.Spelling
import Adventure.Proofs.Renaming
import Adventure.Proofs.DeadCode
import Adventure.Proofs.Echo
import Adventure.Proofs.Inert
import Adventure.Proofs.Alike
import Adventure.Proofs.Unrolling
import Adventure.Proofs.FrontEnds
import Adventure.Proofs.OpenText
import Adventure.Proofs.TemplateRoundTrip
import Adventure.Proofs.DiceSums
import Adventure.Proofs.Regrouping
import Adventure.Proofs.Sharing
import Adventure.Proofs.Screen
import Adventure.Proofs.CursorCalls
import Adventure.Parsing.OnDemand
import Adventure.Proofs.ParserCalls
import Adventure.Proofs.FailureReport
import Adventure.Proofs.Lookahead
import Adventure.Proofs.Asking
import Adventure.Proofs.OnDemand
import Adventure.Proofs.Truncation

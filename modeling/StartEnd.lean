import StartEnd.Command.Help
import StartEnd.Command.Options
import StartEnd.Command.Run
import StartEnd.Fault
import StartEnd.Fault.Diagnostic
import StartEnd.Fault.Document
import StartEnd.Grammar.First
import StartEnd.Grammar.Rule
import StartEnd.Grammar.Symbol
import StartEnd.Json
import StartEnd.Json.Layout
import StartEnd.Main
import StartEnd.Parse.Expression
import StartEnd.Parse.Program
import StartEnd.Parse.State
import StartEnd.Parse.Statement
import StartEnd.Parse.Tables
import StartEnd.Position
import StartEnd.Text.Blank
import StartEnd.Text.CodeRange
import StartEnd.Text.Combining
import StartEnd.Text.Printable
import StartEnd.Text.Quoted
import StartEnd.Token
import StartEnd.Token.Cursor
import StartEnd.Token.Kind
import StartEnd.Token.Pattern
import StartEnd.Tree
import StartEnd.Tree.Canonical
import StartEnd.Tree.Document
import StartEnd.Tree.Operator
import StartEnd.Tree.Outline
import StartEnd.Proofs.Parse.View
import StartEnd.Proofs.Reading.Judgement
import StartEnd.Proofs.Concrete.Expression
import StartEnd.Proofs.Reading.Expression
import StartEnd.Proofs.Concrete.Statement
import StartEnd.Proofs.Reading.Statement
import StartEnd.Proofs.Reading.Program
import StartEnd.Proofs.Replay.Judgement
import StartEnd.Proofs.Replay.Expression
import StartEnd.Proofs.Replay.Statement
import StartEnd.Proofs.Replay.Program
import StartEnd.Proofs.Grammar.Derivation
import StartEnd.Proofs.Grammar.First
import StartEnd.Proofs.Replay.Derivation
import StartEnd.Proofs.Concrete.Greedy
import StartEnd.Proofs.Concrete.Sentence
import StartEnd.Proofs.Grammar.Language
import StartEnd.Proofs.Lexing.Match
import StartEnd.Proofs.Lexing.Delivery
import StartEnd.Proofs.Lexing.Lexeme
import StartEnd.Proofs.Tree.WellFormed
import StartEnd.Proofs.Canonical.Concrete
import StartEnd.Proofs.Canonical.Text
import StartEnd.Proofs.Canonical.RoundTrip
import StartEnd.Proofs.Canonical.Nest
import StartEnd.Proofs.Canonical.Reparse
import StartEnd.Proofs.Replay.Rightmost
import StartEnd.Proofs.Grammar.Chain
import StartEnd.Proofs.Grammar.Phrase
import StartEnd.Proofs.Expectation.Judgement
import StartEnd.Proofs.Expectation.Expression
import StartEnd.Proofs.Expectation.Statement
import StartEnd.Proofs.Expectation.Program
import StartEnd.Proofs.Online.Judgement
import StartEnd.Proofs.Parse.Supply
import StartEnd.Proofs.Parse.Progress
import StartEnd.Proofs.Parse.Rounds
import StartEnd.Proofs.Lexing.Position
import StartEnd.Proofs.Lexing.Lossless
import StartEnd.Proofs.Lexing.Munch
import StartEnd.Proofs.Lexing.Order
import StartEnd.Proofs.Online.Construct
import StartEnd.Proofs.Online.Program
import StartEnd.Proofs.Online.Source
import StartEnd.Proofs.Precedence.Arrangement
import StartEnd.Proofs.Precedence.Expression
import StartEnd.Proofs.Canonical.Parentheses
import StartEnd.Proofs.Concrete.Unique
import StartEnd.Proofs.Nesting.Exact
import StartEnd.Proofs.Braces.Bare
import StartEnd.Proofs.Document.Edit
import StartEnd.Proofs.Document.Entered
import StartEnd.Proofs.Document.Reader
import StartEnd.Proofs.Document.Tree
import StartEnd.Proofs.Document.ReadBack
import StartEnd.Proofs.Fault.Line
import StartEnd.Proofs.Fault.Place
import StartEnd.Proofs.Fault.Caret
import StartEnd.Proofs.Tree.Texts
import StartEnd.Proofs.Kinds.Composition
import StartEnd.Proofs.Kinds.Construct
import StartEnd.Proofs.Kinds.Program
import StartEnd.Proofs.Kinds.Layout
import StartEnd.Proofs.Parse.Termination
import StartEnd.Proofs.Parse.Session
import StartEnd.Proofs.Nesting.Closing
import StartEnd.Proofs.Nesting.Level

import DeskCalc.Archive
import DeskCalc.Batch
import DeskCalc.Binary64
import DeskCalc.Decimal.Basic
import DeskCalc.Decimal.Layout
import DeskCalc.Decimal.Reading
import DeskCalc.Display
import DeskCalc.Display.Edit
import DeskCalc.Expression
import DeskCalc.Expression.Building
import DeskCalc.Extraction
import DeskCalc.Extraction.Confined
import DeskCalc.Field
import DeskCalc.FilePath
import DeskCalc.FileStore
import DeskCalc.Host
import DeskCalc.Journal
import DeskCalc.Kind
import DeskCalc.Main
import DeskCalc.Options.Arguments
import DeskCalc.Options.Settings
import DeskCalc.Outcome
import DeskCalc.Program
import DeskCalc.Proofs.Accepted
import DeskCalc.Proofs.Accounting
import DeskCalc.Proofs.Calls
import DeskCalc.Proofs.Chaining
import DeskCalc.Proofs.Content
import DeskCalc.Proofs.Continuation
import DeskCalc.Proofs.DistinctLines
import DeskCalc.Proofs.FileMode
import DeskCalc.Proofs.Fitting
import DeskCalc.Proofs.Grouping
import DeskCalc.Proofs.Insertion
import DeskCalc.Proofs.Interaction
import DeskCalc.Proofs.Lines
import DeskCalc.Proofs.Literal
import DeskCalc.Proofs.Modes
import DeskCalc.Proofs.Negation
import DeskCalc.Proofs.Numeral
import DeskCalc.Proofs.Obtainable
import DeskCalc.Proofs.Percent
import DeskCalc.Proofs.Placing
import DeskCalc.Proofs.PlainName
import DeskCalc.Proofs.Positional
import DeskCalc.Proofs.Reading
import DeskCalc.Proofs.Reporting
import DeskCalc.Proofs.Rereading
import DeskCalc.Proofs.ResultsFile
import DeskCalc.Proofs.ResultsPath
import DeskCalc.Proofs.RoundTrip
import DeskCalc.Proofs.Rounding
import DeskCalc.Proofs.Rounds
import DeskCalc.Proofs.Sentence
import DeskCalc.Proofs.Separator
import DeskCalc.Proofs.Sequence
import DeskCalc.Proofs.SignChange
import DeskCalc.Proofs.Spelling
import DeskCalc.Proofs.Splitting
import DeskCalc.Proofs.Temporary
import DeskCalc.Proofs.Typing
import DeskCalc.Proofs.Undoing
import DeskCalc.Proofs.Unpacking
import DeskCalc.Proofs.Utf8
import DeskCalc.Proofs.Warnings
import DeskCalc.Proofs.Ways
import DeskCalc.Proofs.Writing
import DeskCalc.Reader
import DeskCalc.Session
import DeskCalc.Text.Basic
import DeskCalc.Text.Characters
import DeskCalc.Text.Encoding
import DeskCalc.Text.Quoted
import DeskCalc.Text.UpperCase
import DeskCalc.Token
import DeskCalc.Token.Row
import DeskCalc.Tree.Arena
import DeskCalc.Tree.Basic
import DeskCalc.Tree.Evaluate
import DeskCalc.Tree.Gap
import DeskCalc.Tree.Insert
import DeskCalc.Tree.Order
import DeskCalc.Tree.Placement

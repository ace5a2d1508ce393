import FindQuery.Journal.Request
import FindQuery.Node.Build
import FindQuery.Node.Print
import FindQuery.Workspace
import FindQuery.Proofs.Entries
import FindQuery.Proofs.Node.Expression
import FindQuery.Proofs.Node.Truth
import FindQuery.Proofs.Node.Validation
import FindQuery.Proofs.Node.Recovery
import FindQuery.Proofs.Group.Distinct
import FindQuery.Proofs.Group.Key
import FindQuery.Proofs.Group.Order
import FindQuery.Proofs.Group.Arrange
import FindQuery.Proofs.Group.Agreement
import FindQuery.Proofs.Params.Encoding
import FindQuery.Proofs.Group.Failure
import FindQuery.Proofs.Group.Recovery
import FindQuery.Proofs.Params.Basic
import FindQuery.Proofs.Request.Failure
import FindQuery.Proofs.Request.Refusal
import FindQuery.Proofs.Group.Position
import FindQuery.Proofs.Request.Form
import FindQuery.Proofs.Request.Written
import FindQuery.Proofs.Node.Marked
import FindQuery.Proofs.Node.Call
import FindQuery.Proofs.Node.Support
import FindQuery.Proofs.Group.Isolation
import FindQuery.Proofs.Group.Relevance
import FindQuery.Proofs.Request.Permutation
import FindQuery.Request.Same
import FindQuery.Proofs.Coerce
import FindQuery.Proofs.NotANumber
import FindQuery.Proofs.Params.Malformed
import FindQuery.Proofs.Params.ByteRun
import FindQuery.Proofs.Params.AsciiRun
import FindQuery.Proofs.Params.Legal
import FindQuery.Proofs.Params.Concatenation
import FindQuery.Proofs.Group.Grammar
import FindQuery.Proofs.Value.Copies
import FindQuery.Proofs.Request.WellFormed
import FindQuery.Proofs.Request.Repetition
import FindQuery.Proofs.Journal.Attach
import FindQuery.Proofs.Journal.Session
import FindQuery.Proofs.Journal.ErrorFile
import FindQuery.Proofs.Group.Fate
import FindQuery.Proofs.Journal.Dropped
import FindQuery.Proofs.Calendar.Ordinal
import FindQuery.Proofs.DateText.Weekday
import FindQuery.Proofs.DateText.Complete
import FindQuery.Proofs.Numeral.Literal
import FindQuery.Proofs.Binary64.Literal
import FindQuery.Proofs.Binary64.Whole
import FindQuery.Proofs.Coerce.Language
import FindQuery.Proofs.Coerce.Word
import FindQuery.Proofs.Coerce.Whole
import FindQuery.Proofs.DateText.Token
import FindQuery.Proofs.DateText.IsoTokens
import FindQuery.Proofs.DateText.IsoReading
import FindQuery.Proofs.Coerce.Iso
import FindQuery.Proofs.Numeral.Digits
import FindQuery.Proofs.Coerce.Listing
import FindQuery.Proofs.Node.Placement
import FindQuery.Proofs.Group.Omission
import FindQuery.Proofs.Request.Page
import FindQuery.Proofs.Numeral.Octal
import FindQuery.Proofs.Request.Sort
import FindQuery.Proofs.Numeral.Notation
import FindQuery.Proofs.Request.Notation
import FindQuery.Proofs.DateText.Step
import FindQuery.Proofs.DateText.Offset
import FindQuery.Proofs.Coerce.Zone
import FindQuery.Proofs.Binary64.Rank
import FindQuery.Proofs.Binary64.Nearest
import FindQuery.Proofs.Binary64.Rounding
import FindQuery.Proofs.Binary64.Decimal
import FindQuery.Proofs.Coerce.Decimal
import FindQuery.Proofs.Numeral.Padded
import FindQuery.Proofs.Settings
import FindQuery.Proofs.Request.FilterName
import FindQuery.Proofs.Binary64.Shortest
import FindQuery.Proofs.Binary64.Print
import FindQuery.Proofs.Coerce.Printed
import FindQuery.Proofs.Value.Same
import FindQuery.Proofs.Value.Number
import FindQuery.Proofs.Node.Same
import FindQuery.Proofs.Node.Congruence
import FindQuery.Proofs.Group.Filing
import FindQuery.Proofs.Journal.OwnFile
import FindQuery.Proofs.Journal.OneLine
import FindQuery.Proofs.Value.Path
import FindQuery.Proofs.Node.Copies
import FindQuery.Proofs.Workspace
import FindQuery.Proofs.Journal.Files
import FindQuery.Proofs.Journal.Listing
import FindQuery.Proofs.Journal.Resolve

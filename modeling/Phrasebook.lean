import Phrasebook.Catalog
import Phrasebook.Decimal.Binary
import Phrasebook.Decimal.Fixed
import Phrasebook.Decimal.Positional
import Phrasebook.Decimal.Reading
import Phrasebook.Decimal.Shortest
import Phrasebook.Formatter
import Phrasebook.Function.Failure
import Phrasebook.Function.Library
import Phrasebook.Function.Schema
import Phrasebook.Keyed
import Phrasebook.Locale
import Phrasebook.Message.Basic
import Phrasebook.Message.Operand
import Phrasebook.Message.Parse
import Phrasebook.Message.Part
import Phrasebook.Message.Pattern
import Phrasebook.Metadata
import Phrasebook.Piece
import Phrasebook.Plural.Cardinal
import Phrasebook.Plural.Library
import Phrasebook.Plural.Listed
import Phrasebook.Plural.Operands
import Phrasebook.Plural.Ordinal
import Phrasebook.Plural.Rule
import Phrasebook.Proofs.Decimal.Bits
import Phrasebook.Proofs.Decimal.Fraction
import Phrasebook.Proofs.Decimal.Rounding
import Phrasebook.Proofs.Grammar.Acceptance
import Phrasebook.Proofs.Grammar.Closing
import Phrasebook.Proofs.Grammar.Decoding
import Phrasebook.Proofs.Grammar.Junk
import Phrasebook.Proofs.Grammar.Locality
import Phrasebook.Proofs.Grammar.Location
import Phrasebook.Proofs.Grammar.Order
import Phrasebook.Proofs.Grammar.Outline
import Phrasebook.Proofs.Grammar.Placeholder
import Phrasebook.Proofs.Grammar.Placement
import Phrasebook.Proofs.Grammar.Position
import Phrasebook.Proofs.Grammar.Recognition
import Phrasebook.Proofs.Grammar.Slicing
import Phrasebook.Proofs.Grammar.Template
import Phrasebook.Proofs.Grammar.Tiling
import Phrasebook.Proofs.Grammar.Token
import Phrasebook.Proofs.Grammar.Trailing
import Phrasebook.Proofs.Grammar.WellFormed
import Phrasebook.Proofs.Message.FirstWrite
import Phrasebook.Proofs.Message.NormalForm
import Phrasebook.Proofs.Message.Storage
import Phrasebook.Proofs.Resolve.Agreement
import Phrasebook.Proofs.Resolve.CallStack
import Phrasebook.Proofs.Resolve.Calls
import Phrasebook.Proofs.Resolve.Capacity
import Phrasebook.Proofs.Resolve.Choice
import Phrasebook.Proofs.Resolve.Containment
import Phrasebook.Proofs.Resolve.Declarations
import Phrasebook.Proofs.Resolve.Degradation
import Phrasebook.Proofs.Resolve.Depth
import Phrasebook.Proofs.Resolve.Erasure
import Phrasebook.Proofs.Resolve.Filtering
import Phrasebook.Proofs.Resolve.Following
import Phrasebook.Proofs.Resolve.Merging
import Phrasebook.Proofs.Resolve.Nesting
import Phrasebook.Proofs.Resolve.Outcome
import Phrasebook.Proofs.Resolve.Output
import Phrasebook.Proofs.Resolve.Reference
import Phrasebook.Proofs.Resolve.Rendering
import Phrasebook.Proofs.Resolve.Scoping
import Phrasebook.Proofs.Resolve.TermFree
import Phrasebook.Proofs.Resolve.Unavailable
import Phrasebook.Proofs.Resolve.Verbatim
import Phrasebook.Proofs.Resolve.Visibility
import Phrasebook.Proofs.Stock.Counting
import Phrasebook.Proofs.Stock.Exactness
import Phrasebook.Proofs.Stock.Numeral
import Phrasebook.Proofs.Stock.Trimming
import Phrasebook.Proofs.Text.Distance
import Phrasebook.Proofs.Text.Suggestion
import Phrasebook.Resolve.Basic
import Phrasebook.Resolve.Context
import Phrasebook.Resolve.Matching
import Phrasebook.Resolve.Options
import Phrasebook.Scope
import Phrasebook.Stock.Library
import Phrasebook.Stock.Number
import Phrasebook.Stock.Plural
import Phrasebook.Suggestion
import Phrasebook.Syntax.Error
import Phrasebook.Syntax.Placeholder
import Phrasebook.Syntax.Reading
import Phrasebook.Syntax.Slicing
import Phrasebook.Syntax.Template
import Phrasebook.Syntax.Token
import Phrasebook.Syntax.Tree
import Phrasebook.Text.Alphabetic
import Phrasebook.Text.Cursor
import Phrasebook.Text.Distance
import Phrasebook.Text.Integer
import Phrasebook.Text.Space
import Phrasebook.Value

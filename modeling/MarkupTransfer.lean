import MarkupTransfer.Alignment
import MarkupTransfer.Alignment.Searched
import MarkupTransfer.Bisection
import MarkupTransfer.CommandLine.Arguments
import MarkupTransfer.CommandLine.Forms
import MarkupTransfer.CommandLine.Help
import MarkupTransfer.CommandLine.Run
import MarkupTransfer.Dialect
import MarkupTransfer.Draft.Basic
import MarkupTransfer.Draft.Build
import MarkupTransfer.Draft.Claims
import MarkupTransfer.Draft.Mark
import MarkupTransfer.Draft.Provenance
import MarkupTransfer.Draft.Session
import MarkupTransfer.Json
import MarkupTransfer.Json.Read
import MarkupTransfer.Main
import MarkupTransfer.Markup.EntityName
import MarkupTransfer.Markup.EntityName.Lower
import MarkupTransfer.Markup.EntityName.Upper
import MarkupTransfer.Markup.Grammar
import MarkupTransfer.Markup.Reference
import MarkupTransfer.Pass
import MarkupTransfer.Projection.Guarded
import MarkupTransfer.Projection.InPlace
import MarkupTransfer.Projection.Pairing
import MarkupTransfer.Projection.Reach
import MarkupTransfer.Projection.Span
import MarkupTransfer.Projection.SpanTree
import MarkupTransfer.Projection.Stacked
import MarkupTransfer.Projection.Transfer
import MarkupTransfer.Proofs.Alignment
import MarkupTransfer.Proofs.Alignment.Pairs
import MarkupTransfer.Proofs.Draft.Cells
import MarkupTransfer.Proofs.Draft.Claiming
import MarkupTransfer.Proofs.Draft.Claims
import MarkupTransfer.Proofs.Draft.Commit
import MarkupTransfer.Proofs.Draft.Division
import MarkupTransfer.Proofs.Draft.Gaps
import MarkupTransfer.Proofs.Draft.Policies
import MarkupTransfer.Proofs.Draft.Reachable
import MarkupTransfer.Proofs.Draft.Recency
import MarkupTransfer.Proofs.Draft.Rendering
import MarkupTransfer.Proofs.Draft.Stretches
import MarkupTransfer.Proofs.Draft.Succession
import MarkupTransfer.Proofs.Draft.Tokens
import MarkupTransfer.Proofs.Draft.Woven
import MarkupTransfer.Proofs.Json.RoundTrip
import MarkupTransfer.Proofs.Markup.Decoding
import MarkupTransfer.Proofs.Markup.Escape
import MarkupTransfer.Proofs.Markup.Grammar
import MarkupTransfer.Proofs.Markup.Language
import MarkupTransfer.Proofs.Markup.Parts
import MarkupTransfer.Proofs.Markup.Reference
import MarkupTransfer.Proofs.Projection.Balance
import MarkupTransfer.Proofs.Projection.Exact
import MarkupTransfer.Proofs.Projection.Failure
import MarkupTransfer.Proofs.Projection.Greedy
import MarkupTransfer.Proofs.Projection.Guarded
import MarkupTransfer.Proofs.Projection.Identity
import MarkupTransfer.Proofs.Projection.Itself
import MarkupTransfer.Proofs.Projection.Layout
import MarkupTransfer.Proofs.Projection.Lineage
import MarkupTransfer.Proofs.Projection.Matching
import MarkupTransfer.Proofs.Projection.Monotone
import MarkupTransfer.Proofs.Projection.Nearest
import MarkupTransfer.Proofs.Projection.Nesting
import MarkupTransfer.Proofs.Projection.Pairing
import MarkupTransfer.Proofs.Projection.Places
import MarkupTransfer.Proofs.Projection.Rearranged
import MarkupTransfer.Proofs.Projection.Separation
import MarkupTransfer.Proofs.Projection.Sequences
import MarkupTransfer.Proofs.Projection.Siblings
import MarkupTransfer.Proofs.Projection.Spans
import MarkupTransfer.Proofs.Projection.Stacked
import MarkupTransfer.Proofs.Projection.Strays
import MarkupTransfer.Proofs.Projection.Transfer
import MarkupTransfer.Proofs.Projection.Width
import MarkupTransfer.Proofs.Provenance.Locality
import MarkupTransfer.Proofs.Provenance.Order
import MarkupTransfer.Proofs.Provenance.Positions
import MarkupTransfer.Proofs.Provenance.Starts
import MarkupTransfer.Proofs.Rows
import MarkupTransfer.Proofs.Sentence.Again
import MarkupTransfer.Proofs.Sentence.Apart
import MarkupTransfer.Proofs.Sentence.Boundaries
import MarkupTransfer.Proofs.Sentence.Coherence
import MarkupTransfer.Proofs.Sentence.Order
import MarkupTransfer.Proofs.Sentence.Origin
import MarkupTransfer.Proofs.Sentence.Plain
import MarkupTransfer.Proofs.Sentence.Settle
import MarkupTransfer.Proofs.Sentence.Showing
import MarkupTransfer.Proofs.Sentence.Slots
import MarkupTransfer.Proofs.Sentence.Stored
import MarkupTransfer.Proofs.Sentence.Stripped
import MarkupTransfer.Proofs.Space
import MarkupTransfer.Proofs.Spacing.Punctuation
import MarkupTransfer.Proofs.Spacing.Separators
import MarkupTransfer.Proofs.Spacing.Transfer
import MarkupTransfer.Proofs.Text.Scan
import MarkupTransfer.Proofs.Text.Segment
import MarkupTransfer.Proofs.Text.Slices
import MarkupTransfer.Proofs.Text.Tabs
import MarkupTransfer.Proofs.Tokenize.KeptTags
import MarkupTransfer.Proofs.Tokenize.Marks
import MarkupTransfer.Proofs.Tokenize.Neighbours
import MarkupTransfer.Proofs.Tokenize.Passes
import MarkupTransfer.Proofs.Tokenize.Pipelines
import MarkupTransfer.Proofs.Tokenize.Placeholders
import MarkupTransfer.Proofs.Tokenize.Reading
import MarkupTransfer.Proofs.Tokenize.References
import MarkupTransfer.Proofs.Tokenize.RoundTrip
import MarkupTransfer.Proofs.Tokenize.Words
import MarkupTransfer.Sentence.Basic
import MarkupTransfer.Sentence.Render
import MarkupTransfer.Sentence.Settle
import MarkupTransfer.Sentence.Slots
import MarkupTransfer.Sentence.Stored
import MarkupTransfer.SortedSet
import MarkupTransfer.Space
import MarkupTransfer.Spacing.Separators
import MarkupTransfer.Spacing.Transfer
import MarkupTransfer.Tag
import MarkupTransfer.Text.Basic
import MarkupTransfer.Text.Numeral
import MarkupTransfer.Text.Printable
import MarkupTransfer.Text.Scan
import MarkupTransfer.Text.Segment
import MarkupTransfer.Text.WordClass
import MarkupTransfer.Text.WordClass.Attached
import MarkupTransfer.Text.WordClass.Letter
import MarkupTransfer.Text.WordClass.Number
import MarkupTransfer.Token
import MarkupTransfer.Tokenize
import MarkupTransfer.Translation
import MarkupTransfer.Word

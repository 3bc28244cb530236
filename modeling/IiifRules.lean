import IiifRules.Behavior.Basic
import IiifRules.Behavior.Check
import IiifRules.Behavior.Inherit
import IiifRules.Behavior.Rules
import IiifRules.Behavior.Suggest
import IiifRules.Command.Arguments
import IiifRules.Command.Files
import IiifRules.Command.Parse
import IiifRules.Command.Run
import IiifRules.Compliance.Generate
import IiifRules.Compliance.Level
import IiifRules.Compliance.Terms
import IiifRules.Descriptor.Basic
import IiifRules.Descriptor.Field
import IiifRules.Descriptor.Integer
import IiifRules.Descriptor.Load
import IiifRules.Descriptor.Reader
import IiifRules.Descriptor.Shape
import IiifRules.Descriptor.Writer
import IiifRules.Failure
import IiifRules.Failure.Message
import IiifRules.Json.Basic
import IiifRules.Json.Display
import IiifRules.Json.Reader
import IiifRules.Json.Term
import IiifRules.Json.Writer
import IiifRules.Log.Level
import IiifRules.Log.Record
import IiifRules.Log.Template
import IiifRules.Main
import IiifRules.Numeric.Binary64
import IiifRules.Numeric.Numeral
import IiifRules.Numeric.Places
import IiifRules.Numeric.Shortest
import IiifRules.Proofs.Behavior.Chain
import IiifRules.Proofs.Behavior.Conflict
import IiifRules.Proofs.Behavior.Effective
import IiifRules.Proofs.Behavior.Override
import IiifRules.Proofs.Behavior.Paging
import IiifRules.Proofs.Behavior.Sets
import IiifRules.Proofs.Behavior.Suggested
import IiifRules.Proofs.Command.Info
import IiifRules.Proofs.Command.Tiles
import IiifRules.Proofs.Command.Uri
import IiifRules.Proofs.Compliance.Bare
import IiifRules.Proofs.Compliance.Customary
import IiifRules.Proofs.Compliance.Generated
import IiifRules.Proofs.Compliance.Repair
import IiifRules.Proofs.Descriptor.Accepted
import IiifRules.Proofs.Descriptor.Answered
import IiifRules.Proofs.Descriptor.Entries
import IiifRules.Proofs.Descriptor.Inserted
import IiifRules.Proofs.Descriptor.Proper
import IiifRules.Proofs.Descriptor.Reader
import IiifRules.Proofs.Descriptor.Reproduced
import IiifRules.Proofs.Descriptor.Reread
import IiifRules.Proofs.Descriptor.Shape
import IiifRules.Proofs.Descriptor.Sound
import IiifRules.Proofs.Descriptor.Writer
import IiifRules.Proofs.Interleaved
import IiifRules.Proofs.Json.Members
import IiifRules.Proofs.Json.Spelling
import IiifRules.Proofs.Json.Term
import IiifRules.Proofs.Json.Tokens
import IiifRules.Proofs.Log.Record
import IiifRules.Proofs.Numeric.Half
import IiifRules.Proofs.Numeric.Magnitude
import IiifRules.Proofs.Numeric.Nearest
import IiifRules.Proofs.Numeric.Numeral
import IiifRules.Proofs.Numeric.Pixel
import IiifRules.Proofs.Numeric.Quotient
import IiifRules.Proofs.Numeric.Rounding
import IiifRules.Proofs.Numeric.Search
import IiifRules.Proofs.Numeric.Shortest
import IiifRules.Proofs.Numeric.Tenth
import IiifRules.Proofs.Numeric.Value
import IiifRules.Proofs.Outcome
import IiifRules.Proofs.Request.Accepted
import IiifRules.Proofs.Request.Confined
import IiifRules.Proofs.Request.Derived
import IiifRules.Proofs.Request.Extent
import IiifRules.Proofs.Request.Geometry
import IiifRules.Proofs.Request.Identifier
import IiifRules.Proofs.Request.Judged
import IiifRules.Proofs.Request.Monotone
import IiifRules.Proofs.Request.Range
import IiifRules.Proofs.Request.Syntax
import IiifRules.Proofs.Request.Total
import IiifRules.Proofs.Request.Visible
import IiifRules.Proofs.Request.Written
import IiifRules.Proofs.Segment.Answered
import IiifRules.Proofs.Segment.Canonical
import IiifRules.Proofs.Segment.Degrees
import IiifRules.Proofs.Segment.Distinct
import IiifRules.Proofs.Segment.Grammar
import IiifRules.Proofs.Segment.Language
import IiifRules.Proofs.Segment.Plain
import IiifRules.Proofs.Segment.Reading
import IiifRules.Proofs.Segment.RoundTrip
import IiifRules.Proofs.Segment.Token
import IiifRules.Proofs.Segment.Written
import IiifRules.Proofs.Text.Fields
import IiifRules.Proofs.Text.Utf8
import IiifRules.Proofs.Tile.Count
import IiifRules.Proofs.Tile.Delivered
import IiifRules.Proofs.Tile.Magnitude
import IiifRules.Proofs.Tile.Partition
import IiifRules.Proofs.Tile.Published
import IiifRules.Proofs.Tile.Request
import IiifRules.Proofs.Tile.Uri
import IiifRules.Proofs.Uri.Authority
import IiifRules.Proofs.Uri.ImageUri
import IiifRules.Proofs.Uri.InfoUri
import IiifRules.Proofs.Uri.Percent
import IiifRules.Proofs.Uri.Segments
import IiifRules.Report
import IiifRules.Request.Basic
import IiifRules.Request.Check
import IiifRules.Request.Geometry
import IiifRules.Segment.Basic
import IiifRules.Segment.GrammarError
import IiifRules.Segment.Region
import IiifRules.Segment.Rotation
import IiifRules.Segment.Size
import IiifRules.Segment.Terms
import IiifRules.Segment.Token
import IiifRules.Text.Blank
import IiifRules.Text.Decimal
import IiifRules.Text.Fields
import IiifRules.Text.Hex
import IiifRules.Text.Lines
import IiifRules.Text.Printable
import IiifRules.Text.Quoted
import IiifRules.Text.Utf8
import IiifRules.Tile.Grid
import IiifRules.Tile.Uri
import IiifRules.Uri.Address
import IiifRules.Uri.Authority
import IiifRules.Uri.Image
import IiifRules.Uri.Percent
import IiifRules.Vocabulary

import PathQuery.Path.Record
import PathQuery.Path.Reader
import PathQuery.Decimal.Layout
import PathQuery.Query
import PathQuery.Cache
import PathQuery.Json.Reader
import PathQuery.Yaml.Scalar
import PathQuery.Yaml.Token
import PathQuery.Yaml.Reader
import PathQuery.Json.Writer
import PathQuery.Yaml.Writer
import PathQuery.Source.Standard
import PathQuery.Settings
import PathQuery.Main
import PathQuery.Proofs.Path.Grammar
import PathQuery.Proofs.Path.Index
import PathQuery.Proofs.Path.KeyList
import PathQuery.Proofs.Path.Meaning
import PathQuery.Proofs.Path.Acceptance
import PathQuery.Proofs.Path.Canonical
import PathQuery.Proofs.Query.Slice
import PathQuery.Proofs.Cache.Recency
import PathQuery.Proofs.Cache.Sharing
import PathQuery.Proofs.Path.Quoting
import PathQuery.Proofs.Path.Concatenation
import PathQuery.Proofs.Doc.Location
import PathQuery.Proofs.Query.Scan
import PathQuery.Proofs.Path.Compiled
import PathQuery.Proofs.Path.Rereading
import PathQuery.Proofs.Doc.KeyText
import PathQuery.Proofs.Query.Member
import PathQuery.Proofs.Query.Address
import PathQuery.Proofs.Doc.Reordering
import PathQuery.Proofs.Query.Locate
import PathQuery.Proofs.Query.Reordering
import PathQuery.Proofs.Query.Repetition
import PathQuery.Proofs.Source.Archive
import PathQuery.Proofs.Source.Input
import PathQuery.Proofs.Json.Scalar
import PathQuery.Proofs.Json.Rereading
import PathQuery.Proofs.Command.Rereading
import PathQuery.Proofs.Path.Unclosed
import PathQuery.Proofs.Path.Element
import PathQuery.Proofs.Path.Offence
import PathQuery.Proofs.Path.Spacing
import PathQuery.Proofs.Doc.Untagged
import PathQuery.Proofs.Query.Untagged
import PathQuery.Proofs.Query.Words
import PathQuery.Proofs.Query.ScanOrder
import PathQuery.Proofs.Path.Cursor
import PathQuery.Proofs.Source.Outcome
import PathQuery.Proofs.Json.Ending
import PathQuery.Proofs.Source.Joining
import PathQuery.Proofs.Path.Size
import PathQuery.Proofs.Toml.Quoted
import PathQuery.Proofs.Toml.Entry
import PathQuery.Proofs.Command.Saving

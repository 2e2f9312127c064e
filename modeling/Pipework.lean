import Pipework.Command.Arguments
import Pipework.Command.Error
import Pipework.Command.Interface
import Pipework.Command.Logging
import Pipework.Command.Output
import Pipework.Command.Run
import Pipework.Decimal.Literal
import Pipework.Decimal.Shortest
import Pipework.Disk.Host
import Pipework.Disk.Machine
import Pipework.Disk.Path
import Pipework.Disk.Volume
import Pipework.Emit.Github
import Pipework.Emit.Gitlab
import Pipework.Emit.Registry
import Pipework.Failure
import Pipework.Generation
import Pipework.Json.Basic
import Pipework.Json.Codec
import Pipework.Json.Error
import Pipework.Json.Merge
import Pipework.Json.Read
import Pipework.Layout
import Pipework.Lint.Line
import Pipework.Lint.Pattern
import Pipework.Lint.Report
import Pipework.Lint.Rules
import Pipework.Main
import Pipework.Named
import Pipework.Pipeline.Basic
import Pipework.Pipeline.Codec
import Pipework.Pipeline.Consistency
import Pipework.Pipeline.Record
import Pipework.Pipeline.Slug
import Pipework.Pipeline.Template
import Pipework.Proofs.Emit.Github
import Pipework.Proofs.Emit.Gitlab
import Pipework.Proofs.Lint.Github
import Pipework.Proofs.Lint.Gitlab
import Pipework.Proofs.Store.Agreement
import Pipework.Proofs.Store.Separation
import Pipework.Store.Basic
import Pipework.Store.Folder
import Pipework.Store.Memory
import Pipework.Text.Bytes
import Pipework.Text.Lines
import Pipework.Text.Lowercase
import Pipework.Text.Quoted
import Pipework.Text.Shown
import Pipework.Text.Space
import Pipework.Text.Word
import Pipework.Time.Calendar
import Pipework.Time.Instant
import Pipework.Yaml.Document
import Pipework.Yaml.Folded
import Pipework.Yaml.Glyph
import Pipework.Yaml.Node
import Pipework.Yaml.Resolve
import Pipework.Yaml.Scalar
import Pipework.Yaml.Token
import Pipework.Yaml.Typed
import Pipework.Yaml.Value
import Pipework.Proofs.Emit.Shape
import Pipework.Proofs.Session.Export
import Pipework.Proofs.Session.InPlace
import Pipework.Proofs.Emit.Indentation
import Pipework.Proofs.Lint.Tally
import Pipework.Proofs.Lint.Counts
import Pipework.Proofs.Yaml.Spelling
import Pipework.Proofs.Lint.Word
import Pipework.Proofs.Lint.Echo
import Pipework.Proofs.Yaml.Entry
import Pipework.Proofs.Yaml.Literal
import Pipework.Proofs.Json.Reading
import Pipework.Proofs.Json.Yields
import Pipework.Proofs.Pipeline.Reading
import Pipework.Proofs.Time.Calendar
import Pipework.Proofs.Time.Instant
import Pipework.Proofs.Disk.Files
import Pipework.Proofs.Store.History
import Pipework.Proofs.Command.Generate
import Pipework.Proofs.Text.Quoted
import Pipework.Proofs.Yaml.Controls
import Pipework.Proofs.Pipeline.Defaults
import Pipework.Proofs.Pipeline.Reordered
import Pipework.Proofs.Lint.Blank
import Pipework.Proofs.Lint.Body
import Pipework.Proofs.Lint.Triggers
import Pipework.Proofs.Emit.TagPush
import Pipework.Proofs.Emit.Configuration
import Pipework.Proofs.Store.Operations
import Pipework.Proofs.Store.Listing
import Pipework.Proofs.Pipeline.Format
import Pipework.Proofs.Json.Merge
import Pipework.Proofs.Pipeline.Slug
import Pipework.Proofs.Emit.Rule

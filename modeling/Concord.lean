import Concord.Table
import Concord.Text.Blank
import Concord.Text.Class
import Concord.Text.Cells
import Concord.Text.Emoji
import Concord.Text.Ligature
import Concord.Text.Width
import Concord.Text.Quoted
import Concord.Text.Distance
import Concord.Text.Read
import Concord.Text.Position
import Concord.Name
import Concord.Json
import Concord.Json.Reader
import Concord.Json.Shortest
import Concord.Json.Printer
import Concord.Toml
import Concord.Toml.Layout
import Concord.Toml.Moment
import Concord.Toml.Number
import Concord.Toml.Quoted
import Concord.Toml.Reader
import Concord.Config
import Concord.Config.Coding
import Concord.Template
import Concord.Template.Escape
import Concord.Template.Body
import Concord.Template.Scan
import Concord.Lexicon.Error
import Concord.Lexicon
import Concord.Lexicon.Addition
import Concord.Lexicon.Build
import Concord.Lexicon.View
import Concord.Options
import Concord.Value
import Concord.Suggestion
import Concord.Resolution.Error
import Concord.Resolution.Call
import Concord.Resolution.Axis
import Concord.Resolution.Row
import Concord.Resolution
import Concord.Keyed
import Concord.Entry
import Concord.Entry.Resolution
import Concord.Registry
import Concord.File.Path
import Concord.File.Load
import Concord.File.Diagnostic
import Concord.Catalog
import Concord.Catalog.Update
import Concord.Command.Grid
import Concord.Command.Usage
import Concord.Command.Check
import Concord.Command
import Concord.Main
import Concord.Proofs.Lexicon.Growth
import Concord.Proofs.Lexicon.Sound
import Concord.Proofs.Lexicon.History
import Concord.Proofs.Lexicon.Configured
import Concord.Proofs.Lexicon.Views
import Concord.Proofs.Resolution.Course
import Concord.Proofs.Resolution.Parts
import Concord.Proofs.Resolution.Raising
import Concord.Proofs.Resolution.Meaning
import Concord.Proofs.Resolution.Adequacy
import Concord.Proofs.Resolution.Faults
import Concord.Proofs.Template.Cutting
import Concord.Proofs.Template.Segments
import Concord.Proofs.Template.Literal
import Concord.Proofs.Catalog.History
import Concord.Proofs.Catalog.Inflecting
import Concord.Proofs.Catalog.Team
import Concord.Proofs.Resolution.Sharing
import Concord.Proofs.Template.Written
import Concord.Proofs.Lexicon.Rebuilding
import Concord.Proofs.Resolution.Isolation
import Concord.Proofs.Template.Keyed
import Concord.Proofs.Resolution.Addressing
import Concord.Proofs.Catalog.Keyed
import Concord.Proofs.Resolution.Aliases
import Concord.Proofs.Resolution.Disallowed
import Concord.Proofs.Resolution.Defaults
import Concord.Proofs.Json.Canonical
import Concord.Proofs.Json.Spelling
import Concord.Proofs.Command.Checking
import Concord.Proofs.Resolution.Naming
import Concord.Proofs.Resolution.Positions
import Concord.Proofs.Catalog.Entries
import Concord.Proofs.Catalog.Failing
import Concord.Proofs.Lexicon.Adding
import Concord.Proofs.Lexicon.Ordering
import Concord.Proofs.Catalog.Merging
import Concord.Proofs.Template.Rereading
import Concord.Proofs.Template.Backslashes
import Concord.Proofs.Template.Bodies
import Concord.Proofs.Registry.History
import Concord.Proofs.File.Pointing
import Concord.Proofs.Config.Coding
import Concord.Proofs.Entry.Coding
import Concord.Proofs.Suggestion.Closest
import Concord.Proofs.Resolution.Describing
import Concord.Proofs.Keyed.Pairs

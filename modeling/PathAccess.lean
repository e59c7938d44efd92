import PathAccess.Audit.Event
import PathAccess.Audit.Log
import PathAccess.Calendar
import PathAccess.Command.Arguments
import PathAccess.Command.Basic
import PathAccess.Command.Report
import PathAccess.Command.Run
import PathAccess.Config.Basic
import PathAccess.Config.Field
import PathAccess.Config.Load
import PathAccess.Config.Problem
import PathAccess.Database.Basic
import PathAccess.Database.Document
import PathAccess.Database.Groups
import PathAccess.Database.Seed
import PathAccess.Decimal.Binary64
import PathAccess.Directory
import PathAccess.Disk.Basic
import PathAccess.Disk.FilePath
import PathAccess.Disk.FileStore
import PathAccess.Entries
import PathAccess.Evaluation
import PathAccess.Json.Printer
import PathAccess.Json.Reader
import PathAccess.Level
import PathAccess.Listing.Render
import PathAccess.Main
import PathAccess.Page.Basic
import PathAccess.Page.Markup
import PathAccess.Page.Table
import PathAccess.Page.Wrap
import PathAccess.Path
import PathAccess.Principal
import PathAccess.Proofs.Database.Trees
import PathAccess.Proofs.Entries
import PathAccess.Proofs.Evaluation.Priority
import PathAccess.Proofs.Evaluation.Trace
import PathAccess.Proofs.Evaluation.Verdicts
import PathAccess.Proofs.Service.Calls
import PathAccess.Proofs.Service.Changes
import PathAccess.Proofs.Service.Confinement
import PathAccess.Proofs.Service.Evaluation
import PathAccess.Proofs.Service.Homes
import PathAccess.Proofs.Service.Requests
import PathAccess.Proofs.Tree.Flatten
import PathAccess.Proofs.Tree.Frame
import PathAccess.Proofs.Tree.LastWrite
import PathAccess.Proofs.Tree.Marred
import PathAccess.Proofs.Tree.Overlay
import PathAccess.Proofs.Tree.Reading
import PathAccess.Proofs.Tree.WellFormed
import PathAccess.Service.Basic
import PathAccess.Service.Grant
import PathAccess.Service.Listing
import PathAccess.Service.Membership
import PathAccess.Service.Query
import PathAccess.Service.Reset
import PathAccess.Service.Standalone
import PathAccess.Store
import PathAccess.Text.Blank
import PathAccess.Text.Case
import PathAccess.Text.CaseTable
import PathAccess.Text.DigitTable
import PathAccess.Text.Numeral
import PathAccess.Text.PrintTable
import PathAccess.Text.Quoted
import PathAccess.Tree.Basic
import PathAccess.Tree.Data
import PathAccess.Tree.Edit
import PathAccess.Tree.Overlay
import PathAccess.Tree.Rows
import PathAccess.Value.Basic
import PathAccess.Value.Display
import PathAccess.Yaml.Chars
import PathAccess.Yaml.Error
import PathAccess.Yaml.Node
import PathAccess.Yaml.Plain
import PathAccess.Yaml.Printer
import PathAccess.Yaml.Reader
import PathAccess.Yaml.Token.Basic
import PathAccess.Yaml.Token.Cursor
import PathAccess.Yaml.Token.Lexer
import PathAccess.Yaml.Token.Property
import PathAccess.Yaml.Token.Scalar
import PathAccess.Proofs.Path
import PathAccess.Proofs.Database.Memberships
import PathAccess.Proofs.Service.Lookups
import PathAccess.Proofs.Service.Agreement
import PathAccess.Proofs.Service.Grants
import PathAccess.Proofs.Database.WellFormed
import PathAccess.Proofs.Service.BlastRadius
import PathAccess.Proofs.Service.Steps
import PathAccess.Proofs.Tree.Data
import PathAccess.Proofs.Tree.Tidy
import PathAccess.Proofs.Database.Document
import PathAccess.Proofs.Database.Sound
import PathAccess.Proofs.Service.Actions
import PathAccess.Proofs.Service.Reachability
import PathAccess.Proofs.Service.Durability
import PathAccess.Proofs.Service.Courses
import PathAccess.Proofs.Service.Decisions
import PathAccess.Proofs.Service.Unsaved
import PathAccess.Proofs.Service.Refusals
import PathAccess.Proofs.Service.Replay
import PathAccess.Proofs.Tree.StoredForm
import PathAccess.Proofs.Tree.Meaning
import PathAccess.Proofs.Service.RuledHomes
import PathAccess.Proofs.Tree.Uncovered
import PathAccess.Proofs.Service.Tiers
import PathAccess.Proofs.Database.Thinned
import PathAccess.Proofs.Service.Beside
import PathAccess.Proofs.Service.Paired
import PathAccess.Proofs.Service.Questions
import PathAccess.Proofs.Tree.Alike
import PathAccess.Proofs.Tree.Replacement
import PathAccess.Proofs.Tree.Modifiers
import PathAccess.Proofs.Path.Collapse
import PathAccess.Proofs.Tree.Edits
import PathAccess.Proofs.Tree.Minimal
import PathAccess.Proofs.Tree.ShortestForm
import PathAccess.Proofs.Tree.Same
import PathAccess.Proofs.Tree.Independence
import PathAccess.Proofs.Path.Append
import PathAccess.Proofs.Path.Dots
import PathAccess.Proofs.Path.HomeNames
import PathAccess.Proofs.Principal
import PathAccess.Proofs.Service.GroupLookup
import PathAccess.Proofs.Tree.Absorption
import PathAccess.Proofs.Service.Joining
import PathAccess.Proofs.Service.Listings
import PathAccess.Proofs.Path.Slashed
import PathAccess.Proofs.Disk.Directories
import PathAccess.Proofs.Disk.Saving
import PathAccess.Proofs.Audit.Reading
import PathAccess.Proofs.Audit.PathSearch
import PathAccess.Proofs.Tree.Rows
import PathAccess.Proofs.Disk.Directories

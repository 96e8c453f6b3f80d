import Annals.Date.Written
import Annals.Main
import Annals.Proofs.Process.Lines
import Annals.Proofs.Text.Fields
import Annals.Proofs.Date.Calendar
import Annals.Proofs.Date.Matching
import Annals.Proofs.Date.Stamp
import Annals.Proofs.Date.Printed
import Annals.Proofs.History.Reader
import Annals.Proofs.History.Calls
import Annals.Proofs.History.Isolation
import Annals.Proofs.BitKeeper.Log
import Annals.Proofs.Git.Log
import Annals.Proofs.Git.Revision
import Annals.Proofs.Repository.Logs
import Annals.Proofs.Repository.History
import Annals.Proofs.BitKeeper.Tags
import Annals.Proofs.Git.Tags
import Annals.Proofs.Git.Blame
import Annals.Proofs.Repository.Containment
import Annals.Proofs.History.Headers
import Annals.Proofs.Process.Modes
import Annals.Proofs.Process.Endings
import Annals.Proofs.Repository.Tags
import Annals.Proofs.History.Tagging
import Annals.Proofs.Repository.Tagging
import Annals.Proofs.Repository.Memory
import Annals.Proofs.Repository.Probing
import Annals.Proofs.Repository.BestEffort
import Annals.Proofs.Discovery.Innermost
import Annals.Proofs.Git.Blocks
import Annals.Proofs.Repository.Tasks
import Annals.Proofs.Repository.Propagation
import Annals.Proofs.BitKeeper.Annotate
import Annals.Proofs.Repository.Annotations
import Annals.Proofs.Repository.TagDisplay
import Annals.Proofs.Discovery.Visiting
import Annals.Proofs.Discovery.Collecting
import Annals.Proofs.Discovery.Agreement
import Annals.Proofs.Json.Reports
import Annals.Proofs.Cli.Stages
import Annals.Proofs.Config.Overrides
import Annals.Proofs.Config.Loading
import Annals.Proofs.Git.Losses
import Annals.Proofs.Repository.Bounds
import Annals.Proofs.History.TagOrder
import Annals.Proofs.BitKeeper.TagList
import Annals.Proofs.Git.TagList
import Annals.Proofs.Config.Precedence
import Annals.Proofs.Version.Order
import Annals.Proofs.Version.Announced
import Annals.Proofs.Date.Formats
import Annals.Proofs.Once.Copies
import Annals.Proofs.Render.Tables
import Annals.Proofs.Discovery.Registration
import Annals.Proofs.Repository.Lookups
import Annals.Proofs.Repository.TrackedFiles
import Annals.Proofs.Repository.Parents

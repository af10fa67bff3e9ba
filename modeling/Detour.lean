import Detour.Activation
import Detour.Command.Arguments
import Detour.Command.Basic
import Detour.Command.Report
import Detour.Command.Run
import Detour.Config.Basic
import Detour.Config.Fault
import Detour.Config.Reading
import Detour.Decision
import Detour.Directory
import Detour.Engine
import Detour.Entry
import Detour.Expr.Basic
import Detour.Expr.CharSet
import Detour.Expr.Plan
import Detour.Expr.Reading
import Detour.Expr.Room
import Detour.Expr.Token
import Detour.Instant.Basic
import Detour.Instant.Calendar
import Detour.Instant.Reading
import Detour.Json.Basic
import Detour.Json.Reading
import Detour.Legacy
import Detour.Main
import Detour.Map
import Detour.Request.Basic
import Detour.Request.Target
import Detour.Rewrite.Camel
import Detour.Rewrite.Cleaning
import Detour.Rewrite.Collection
import Detour.Rewrite.Letters
import Detour.Rewrite.Template
import Detour.Rewrite.Transliteration
import Detour.Rule
import Detour.Session
import Detour.Store.Disk
import Detour.Store.HitBook
import Detour.Store.Ledger
import Detour.Store.MissLog
import Detour.Store.RuleTable
import Detour.Store.Staging
import Detour.Text.Basic
import Detour.Text.CaseRun
import Detour.Text.Category
import Detour.Text.Digits
import Detour.Text.Folding
import Detour.Text.Lowercase
import Detour.Text.Percent
import Detour.Text.Piece
import Detour.Text.Ranges
import Detour.Text.Utf8
import Detour.Text.Word
import Detour.Toml.Basic
import Detour.Toml.Reading
import Detour.Toml.Scalar
import Detour.Toml.Tree
import Detour.Url.Absolute
import Detour.Url.Host
import Detour.Url.Reader
import Detour.Wildcard.Kind
import Detour.Wildcard.Pattern
import Detour.Proofs.Activity
import Detour.Proofs.Agreement
import Detour.Proofs.Alignment
import Detour.Proofs.Anchoring
import Detour.Proofs.Asking
import Detour.Proofs.Bookkeeping
import Detour.Proofs.Braces
import Detour.Proofs.Calendar
import Detour.Proofs.Camel
import Detour.Proofs.Capture
import Detour.Proofs.Caseless
import Detour.Proofs.Casing
import Detour.Proofs.Civil
import Detour.Proofs.Cleaning
import Detour.Proofs.Codes
import Detour.Proofs.DayCount
import Detour.Proofs.Decoding
import Detour.Proofs.Diagnosis
import Detour.Proofs.Document
import Detour.Proofs.Encoding
import Detour.Proofs.Finding
import Detour.Proofs.Fringe
import Detour.Proofs.Groups
import Detour.Proofs.Injection
import Detour.Proofs.Ink
import Detour.Proofs.Keeping
import Detour.Proofs.Keys
import Detour.Proofs.Language
import Detour.Proofs.Logging
import Detour.Proofs.Lookup
import Detour.Proofs.Mark
import Detour.Proofs.Marker
import Detour.Proofs.Matching
import Detour.Proofs.Moment
import Detour.Proofs.Mount
import Detour.Proofs.NormalForm
import Detour.Proofs.Numeral
import Detour.Proofs.Padding
import Detour.Proofs.Pages
import Detour.Proofs.Placeholder
import Detour.Proofs.Processes
import Detour.Proofs.Recasing
import Detour.Proofs.Recovery
import Detour.Proofs.Reference
import Detour.Proofs.Referral
import Detour.Proofs.Resolution
import Detour.Proofs.Rising
import Detour.Proofs.Scanning
import Detour.Proofs.Script
import Detour.Proofs.Seam
import Detour.Proofs.Selector
import Detour.Proofs.Shift
import Detour.Proofs.Slash
import Detour.Proofs.Slot
import Detour.Proofs.Source
import Detour.Proofs.Spelling
import Detour.Proofs.Spreading
import Detour.Proofs.Storing
import Detour.Proofs.Surroundings
import Detour.Proofs.Transparency

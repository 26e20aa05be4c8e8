import SafeReports.Engine.Workbench
import SafeReports.Logging.Root
import SafeReports.Settings.Overlay
import SafeReports.Store.Disk.File
import SafeReports.Store.Disk.Report
import SafeReports.Timestamp.RoundTrip
import SafeReports.Proofs.Text.NormalForm
import SafeReports.Proofs.Text.Ascii
import SafeReports.Proofs.Sql.Pattern
import SafeReports.Proofs.Sql.Verdict
import SafeReports.Proofs.Sql.Comment
import SafeReports.Proofs.Sql.Seam
import SafeReports.Proofs.Sql.Stored
import SafeReports.Proofs.Sql.Reading
import SafeReports.Proofs.Sql.Agreement
import SafeReports.Proofs.Sql.Faithful
import SafeReports.Proofs.Sql.Statement
import SafeReports.Proofs.Sql.Spacing
import SafeReports.Proofs.Sql.Objection
import SafeReports.Proofs.Sql.Miscount
import SafeReports.Proofs.Sql.Parenthesis
import SafeReports.Proofs.Sql.Enclosure
import SafeReports.Proofs.Sql.Identifier
import SafeReports.Proofs.Sql.Parts
import SafeReports.Proofs.Sql.Ending
import SafeReports.Proofs.Sql.Phrase
import SafeReports.Proofs.Sql.Escape
import SafeReports.Proofs.Sql.Trailing
import SafeReports.Proofs.Sql.Restored
import SafeReports.Proofs.Sql.Content
import SafeReports.Proofs.Sql.Quotation
import SafeReports.Proofs.Store.Catalog
import SafeReports.Proofs.Store.Operation
import SafeReports.Proofs.Store.Refinement
import SafeReports.Proofs.Engine.Account
import SafeReports.Proofs.Engine.Journal
import SafeReports.Proofs.Engine.Soundness
import SafeReports.Proofs.Engine.Checked
import SafeReports.Proofs.Engine.Discipline
import SafeReports.Proofs.Engine.Fault
import SafeReports.Proofs.Engine.Batch
import SafeReports.Proofs.Store.Refusal
import SafeReports.Proofs.Store.Trail
import SafeReports.Proofs.Construction
import SafeReports.Proofs.Engine.Limit
import SafeReports.Proofs.Store.Resave
import SafeReports.Proofs.Engine.Leftover
import SafeReports.Proofs.Store.Readback
import SafeReports.Proofs.Store.Alteration
import SafeReports.Proofs.Sql.LetterCase
import SafeReports.Proofs.Sql.Layout
import SafeReports.Proofs.Settings.Overlay
import SafeReports.Proofs.Sql.Normal
import SafeReports.Proofs.Report.Rebuilt
import SafeReports.Proofs.Logging.Handlers
import SafeReports.Proofs.Text.Capital
import SafeReports.Proofs.Text.Spaced
import SafeReports.Proofs.Store.Disk
import SafeReports.Proofs.Store.Migration

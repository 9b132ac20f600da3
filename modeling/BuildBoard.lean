import BuildBoard.Main
import BuildBoard.Proofs.Polling
import BuildBoard.Proofs.Table.Batch
import BuildBoard.Proofs.PackageTables
import BuildBoard.Proofs.Dashboard.Reachable
import BuildBoard.Proofs.Dashboard.Step
import BuildBoard.Proofs.Verdict
import BuildBoard.Proofs.Document.Ordered
import BuildBoard.Proofs.Report.Refusal
import BuildBoard.Proofs.IdleBuilders
import BuildBoard.Proofs.Text.Inert
import BuildBoard.Proofs.LogLinks
import BuildBoard.Proofs.DataDirectory
import BuildBoard.Proofs.RateWindow
import BuildBoard.Proofs.Table.Distinct
import BuildBoard.Proofs.Dashboard.Shown
import BuildBoard.Proofs.Report.Listed
import BuildBoard.Proofs.History
import BuildBoard.Proofs.RowIdentity
import BuildBoard.Proofs.OneBuild
import BuildBoard.Proofs.Report.Legacy
import BuildBoard.Proofs.Table.Poll
import BuildBoard.Proofs.Page.Tables
import BuildBoard.Proofs.Coherence
import BuildBoard.Proofs.Highlights
import BuildBoard.Proofs.Repetition
import BuildBoard.Proofs.Dashboard.Results
import BuildBoard.Proofs.Dashboard.Anchor
import BuildBoard.Proofs.Table.Blurred
import BuildBoard.Proofs.WallClock
import BuildBoard.Proofs.Text.Markup
import BuildBoard.Proofs.Page.Markup
import BuildBoard.Proofs.Escaping
import BuildBoard.Proofs.Document.Differ
import BuildBoard.Proofs.Report.Alike
import BuildBoard.Proofs.Report.NumberText
import BuildBoard.Proofs.Report.Rows
import BuildBoard.Proofs.Progress.Geometry
import BuildBoard.Proofs.Checked
import BuildBoard.Proofs.Overflow
import BuildBoard.Proofs.CheckedPolling
import BuildBoard.Proofs.Number.Rounding
import BuildBoard.Proofs.HourlyRate
import BuildBoard.Proofs.Progress.Visible
import BuildBoard.Proofs.Text.Template
import BuildBoard.Proofs.Page.Filled
import BuildBoard.Proofs.Publishing
import BuildBoard.Proofs.Page.Groups
import BuildBoard.Proofs.ShownStatus
import BuildBoard.Proofs.Text.Entities
import BuildBoard.Proofs.Page.Drawn
import BuildBoard.Proofs.Headings
import BuildBoard.Proofs.Text.Percent
import BuildBoard.Proofs.Text.Address
import BuildBoard.Proofs.Page.Links
import BuildBoard.Proofs.FetchAddress
import BuildBoard.Proofs.Document.Literal
import BuildBoard.Proofs.AnchorScript
import BuildBoard.Proofs.DurationText
import BuildBoard.Proofs.Number.LeadingInt

import HistogramMonitor.Histogram.Summary
import HistogramMonitor.Histogram.Wire
import HistogramMonitor.Main
import HistogramMonitor.Proofs.Effects
import HistogramMonitor.Proofs.Scheduler.Parts
import HistogramMonitor.Proofs.Scheduler.Invariant
import HistogramMonitor.Proofs.Scheduler.Turns
import HistogramMonitor.Proofs.Scheduler.Cycles
import HistogramMonitor.Proofs.Scheduler.FollowUp
import HistogramMonitor.Proofs.Scheduler.Requests
import HistogramMonitor.Proofs.Histogram.Format
import HistogramMonitor.Proofs.Histogram.Reading
import HistogramMonitor.Proofs.Histogram.Header
import HistogramMonitor.Proofs.Histogram.Acceptance
import HistogramMonitor.Proofs.Histogram.Truncation
import HistogramMonitor.Proofs.Widths
import HistogramMonitor.Proofs.Histogram.RoundTrip
import HistogramMonitor.Proofs.Scheduler.Reports
import HistogramMonitor.Proofs.Scheduler.Statuses
import HistogramMonitor.Proofs.Scheduler.Settings
import HistogramMonitor.Proofs.Transport.Calls
import HistogramMonitor.Proofs.Replay.Retrieval
import HistogramMonitor.Proofs.Scheduler.Asking
import HistogramMonitor.Proofs.Scheduler.Drawings
import HistogramMonitor.Proofs.Composition
import HistogramMonitor.Proofs.Updater.Mail
import HistogramMonitor.Proofs.Updater.History
import HistogramMonitor.Proofs.Updater.Order
import HistogramMonitor.Proofs.Updater.Ids
import HistogramMonitor.Proofs.Updater.Landing
import HistogramMonitor.Proofs.Scheduler.Deadlines
import HistogramMonitor.Proofs.Updater.Timing
import HistogramMonitor.Proofs.Transport.Likeness
import HistogramMonitor.Proofs.Scheduler.Isolation
import HistogramMonitor.Proofs.Scheduler.Hidden
import HistogramMonitor.Proofs.Updater.Stopping
import HistogramMonitor.Proofs.Scheduler.Blocks
import HistogramMonitor.Proofs.Updater.Unattended
import HistogramMonitor.Proofs.CommandLine.Sessions
import HistogramMonitor.Proofs.CommandLine.Watching
import HistogramMonitor.Proofs.Scheduler.Visits
import HistogramMonitor.Proofs.Scheduler.Shadows
import HistogramMonitor.Proofs.Scheduler.Observers
import HistogramMonitor.Proofs.Replay.Recordings
import HistogramMonitor.Proofs.Config.RoundTrip
import HistogramMonitor.Proofs.Scheduler.Draining
import HistogramMonitor.Proofs.Scheduler.Redirection
import HistogramMonitor.Proofs.Scheduler.Commutation
import HistogramMonitor.Proofs.Updater.Newcomers
import HistogramMonitor.Proofs.Histogram.Cuts
import HistogramMonitor.Proofs.Histogram.Containment
import HistogramMonitor.Proofs.Transport.Messages
import HistogramMonitor.Proofs.Transport.Listing
import HistogramMonitor.Proofs.Transport.Shortfalls
import HistogramMonitor.Proofs.Replay.Arguments
import HistogramMonitor.Proofs.Replay.Lookup
import HistogramMonitor.Proofs.Histogram.Views
import HistogramMonitor.Proofs.Histogram.Alignment
import HistogramMonitor.Proofs.Histogram.Mismatches
import HistogramMonitor.Proofs.Scheduler.Overflow

import HistogramMonitor.Histogram.Snapshot
import HistogramMonitor.Monitor.Command
import HistogramMonitor.Monitor.Status
import HistogramMonitor.Transport.Call

/-!
# Events

Everything that an onlooker can see of a monitor at work: the calls that it makes, what it draws and wipes,
whom it tells about it, the statuses that it reports and the lines that it logs. A run is judged by its
events, in their order.
-/

namespace HistogramMonitor

/-! ## Log lines -/

/-- How serious a line is. -/
inductive Level
  | debug
  | info
  | warn
  | error
  deriving DecidableEq, Repr

/-- The name of a level. -/
def Level.name : Level → String
  | debug => "debug"
  | info => "info"
  | warn => "warn"
  | error => "error"

/-- Where a line goes. -/
inductive Channel
  /-- diagnostics, kept in a file -/
  | diagnostics
  /-- what the user sees -/
  | terminal
  deriving DecidableEq, Repr

/-- One line of a log. -/
structure LogLine where
  channel : Channel
  level : Level
  text : String
  deriving DecidableEq, Repr

/-! ## Events -/

/-- One thing that happened. -/
inductive Event
  /-- a call was made -/
  | call (c : Call)
  /-- a command was sent to the worker while a call was in flight -/
  | sent (s : Sending)
  /-- a series of a plot was drawn -/
  | display (plot series : Nat) (h : Snapshot)
  /-- a plot was wiped -/
  | clear (plot : Nat)
  /-- the refresh of a plot begins -/
  | updateStart (plot : Nat)
  /-- the refresh of a plot has ended -/
  | updateComplete (plot : Nat)
  /-- a cycle over at least one plot begins -/
  | cycleStart
  /-- a cycle over at least one plot has visited its last plot -/
  | cycleComplete
  /-- a status was reported -/
  | status (s : CycleStatus)
  /-- a line was logged -/
  | log (l : LogLine)
  deriving DecidableEq, Repr

namespace Event

/-- A diagnostic line. -/
def diagnostic (level : Level) (text : String) : Event := .log ⟨.diagnostics, level, text⟩

end Event

end HistogramMonitor
